import Lexing.CharClass.Basic
import Lexing.Input.Window
import Lexing.Scanner.Draft
import Lexing.Token.Basic

/-!
# Scanners

A scanner is the state of a scan over one text: a window on the upcoming text, and a draft of the
next token, which receives the code points that are consumed.

The text is divided into what belongs to earlier tokens or was discarded, the literal of the draft
and the upcoming text. `rewind` moves the literal back to the upcoming text.

A failure of the byte source is noticed when the code point after the current one is asked for and
not found. It is reported by the first token that is emitted with an empty literal after that.

## Main definitions

* `Scanner` : the state of a scan.
* `Scanner.keep`, `Scanner.skip`, `Scanner.discard` : consume the current code point.
* `Scanner.rewind` : gives the consumed code points of the draft back.
* `Scanner.peek` : looks at consumed and upcoming code points.
-/

namespace Lexing

/-- The state of a scan over one text. -/
structure Scanner where
  /-- The text to be consumed. -/
  window : Window
  /-- A failure of the byte source that was noticed and has to be reported. -/
  failure : Option Diagnostic := none
  /-- The position of the current code point. -/
  position : Position
  /-- The position where the draft begins. -/
  start : Position
  /-- The token that is being assembled. -/
  draft : Draft := {}
  /-- The kind of the previous token that a lexicon returned, comments not counted. -/
  previousKind : String := ""
  /-- The number of tokens in a row that were emitted without consuming text. -/
  stalls : Nat := 0
  deriving DecidableEq

namespace Scanner

/-! ### Construction -/

/-- Notices a failure of the byte source, if there is a cause, at the current position. -/
def notice (s : Scanner) : Option String → Scanner
  | some cause => { s with failure := some ⟨s.position, .unreadable, some cause⟩ }
  | none => s

/-- A scanner over a stream of code points, the text called `name`. -/
def ofStream (name : String) (input : CharStream) : Scanner :=
  let (window, cause) := Window.ofStream input
  notice { window, position := .start name, start := .start name } cause

/-- A scanner over the code points of a byte source, which are decoded beforehand. -/
def ofSource (name : String) (source : ByteSource) : Scanner :=
  ofStream name (CharStream.ofSource source).load

/-- A scanner over a string. -/
def ofString (name text : String) : Scanner :=
  ofSource name (.ofString text)

/-! ### Queries -/

/-- The current code point. -/
def current? (s : Scanner) : Option Char :=
  s.window.current?

/-- The code point after the current one. -/
def following? (s : Scanner) : Option Char :=
  s.window.following?

/-- The text to be consumed. -/
def upcoming (s : Scanner) : Stretch :=
  s.window.text

/-- Whether the end of the text is reached. -/
def atEnd (s : Scanner) : Bool :=
  s.current?.isNone

/-- Whether the current code point belongs to a class. -/
def isIn (s : Scanner) (k : CharClass) : Bool :=
  k.covers s.current?

/-- Whether the code point after the current one belongs to a class. -/
def followingIn (s : Scanner) (k : CharClass) : Bool :=
  k.covers s.following?

/-- A code point relative to the current one: upcoming ones for indexes from 0, consumed ones of the
draft for negative indexes, the latest first. -/
def peek (s : Scanner) : Int → Option Char × Scanner
  | .ofNat n => ((s.window.peekAt n).1, { s with window := (s.window.peekAt n).2 })
  | .negSucc n => (s.draft.latestChars.chars[n]?, s)

/-- The code point that `peek` gives. -/
def peek? (s : Scanner) (i : Int) : Option Char :=
  (s.peek i).1

/-- The value of the draft as text, with U+FFFD for malformed bytes. -/
def valueText (s : Scanner) : String :=
  String.ofList (Utf8.decodeLossy s.draft.value)

/-- The literal of the draft. -/
def literalText (s : Scanner) : String :=
  String.ofList s.draft.literal

/-! ### The draft -/

/-- Gives the draft a kind. -/
def setKind (s : Scanner) (kind : String) : Scanner :=
  { s with draft := { s.draft with kind } }

/-- Gives the draft a kind if there is one. -/
def setKind? (s : Scanner) : Option String → Scanner
  | some kind => s.setKind kind
  | none => s

/-- Records the kind of the previous token. -/
def setPreviousKind (s : Scanner) (kind : String) : Scanner :=
  { s with previousKind := kind }

/-- Appends a code point to the value. -/
def pushChar (s : Scanner) (c : Char) : Scanner :=
  { s with draft := s.draft.pushChar c }

/-- Appends a byte to the value. -/
def pushByte (s : Scanner) (b : UInt8) : Scanner :=
  { s with draft := s.draft.pushByte b }

/-- Reports a problem at the beginning of the draft, which becomes illegal. -/
def reject (s : Scanner) (problem : Problem) : Scanner :=
  { s with draft := { s.draft with
      kind := Kind.illegal
      diagnostics := s.draft.diagnostics.push { position := s.start, problem } } }

/-- Drops the draft and begins a new one at the current position. -/
def restart (s : Scanner) : Scanner :=
  { s with draft := {}, start := s.position }

/-! ### Consumption -/

/-- Moves past the current code point `c`. -/
def advance (s : Scanner) (c : Char) : Scanner :=
  let (window, cause) := s.window.shift
  notice { s with window, position := s.position.advance c } cause

/-- Appends a code point to the literal. -/
def pushLiteral (s : Scanner) (c : Char) : Scanner :=
  { s with draft := s.draft.pushLiteral c }

/-- Consumes the current code point into the literal and the value. -/
def keep (s : Scanner) : Scanner :=
  match s.current? with
  | some c => ((s.pushChar c).pushLiteral c).advance c
  | none => s

/-- Consumes the current code point into the literal only. -/
def skip (s : Scanner) : Scanner :=
  match s.current? with
  | some c => (s.pushLiteral c).advance c
  | none => s

/-- Consumes the current code point without recording it, drops the draft and begins a new one. -/
def discard (s : Scanner) : Scanner :=
  match s.current? with
  | some c => (s.advance c).restart
  | none => s.restart

/-- Consumes the current code point as an unexpected one. -/
def keepUnexpected (s : Scanner) : Scanner :=
  (s.reject (.unexpected (String.ofList s.current?.toList))).keep

/-- Gives the literal of the draft back to the upcoming text, the latest code point first, and drops
the draft. -/
def rewind (s : Scanner) : Scanner :=
  { s with
    window := s.draft.latestChars.chars.foldl (fun w c => w.pushBack c) s.window
    position := s.start
    draft := {} }

end Scanner

end Lexing
