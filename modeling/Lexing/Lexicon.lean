import Lexing.Rule.Basic

/-!
# Lexicons

A lexicon is the description of a language's tokens: an ordered list of rules, what is discarded
between tokens, and hooks that may act before and after each token. The first rule that matches
makes the token. If none matches, the current code point becomes an illegal token of its own.

A token without value and kind is dropped, and scanning goes on with the next one. A pass that drops
its token without moving the scanner is a fault.

## Main definitions

* `Lexicon` : rules, discards and hooks.
* `Lexicon.next` : scans the next token.
-/

namespace Lexing

/-- The description of a language's tokens. -/
structure Lexicon where
  /-- The rules, in the order in which they are tried. -/
  rules : List Rule := []
  /-- Code points that are discarded between tokens. -/
  discards : CharClass := .empty
  /-- A rule whose matches are dropped between tokens, unless they have a kind or a value. -/
  discardRule : Option Rule := none
  /-- What is done before the rules are tried. -/
  beforeToken : Flags → Scanner → Except Fault Scanner := fun _ s => .ok s
  /-- What is made of each token. -/
  afterToken : Flags → Token → Scanner → Except Fault (Token × Scanner) := fun _ t s => .ok (t, s)
  /-- What is done if no rule matches. -/
  noMatch : Flags → Scanner → Except Fault Scanner := fun _ s => .ok s.keepUnexpected

namespace Lexicon

/-- The lexicon with one more rule, to be tried last. -/
def addRule (x : Lexicon) (r : Rule) : Lexicon :=
  { x with rules := x.rules ++ [r] }

/-- Returns a token and records its kind as the previous one, unless it is a comment. -/
def accept (t : Token) (s : Scanner) : Token × Scanner :=
  (t, if t.kind = Kind.comment then s else s.setPreviousKind t.kind)

/-- Discards what stands between tokens. A match of the discard rule that is no blank token is the
result. The number bounds the passes. -/
def skipDiscardsWithin (x : Lexicon) (flags : Flags) :
    Nat → Scanner → Except Fault (Option Token × Scanner)
  | 0, s => .error (.endless s.position)
  | bound + 1, s => do
    let s := s.whileIn x.discards .discard
    match x.discardRule with
    | none => return (none, s)
    | some rule =>
      let (matched, t) ← rule.eval flags s
      if !matched then return (none, t)
      let (token, t) ← t.emit
      if !token.isBlank then return (some token, t)
      if t.position = s.position then throw (.discardNoProgress s.position)
      skipDiscardsWithin x flags bound t

/-- Discards what stands between tokens. A match of the discard rule that is no blank token is the
result. -/
def skipDiscards (x : Lexicon) (flags : Flags) (s : Scanner) :
    Except Fault (Option Token × Scanner) :=
  x.skipDiscardsWithin flags s.allowance s

/-- Consumes the text of one token and emits it. -/
def scanToken (x : Lexicon) (flags : Flags) (s : Scanner) : Except Fault (Token × Scanner) := do
  let s ← x.beforeToken flags s
  let (matched, s) ← Rule.evalFirst flags x.rules s
  let s ← if matched || s.atEnd then pure s else x.noMatch flags s
  let (token, s) ← s.emit
  x.afterToken flags token s

/-- Scans the next token that is not dropped. The number bounds the passes. -/
def nextWithin (x : Lexicon) (flags : Flags) : Nat → Scanner → Except Fault (Token × Scanner)
  | 0, s => .error (.endless s.position)
  | bound + 1, s => do
    match ← x.skipDiscards flags s with
    | (some token, s) => return accept token s
    | (none, s) =>
      if s.atEnd then s.emit
      else
        let (token, t) ← x.scanToken flags s
        if !token.isBlank then return accept token t
        if t.position = s.position then throw (.noProgress s.position)
        nextWithin x flags bound t

/-- Scans the next token. At the end of the text it has the kind `Kind.endOfText`, or `Kind.error`
if the byte source failed. -/
def next (x : Lexicon) (flags : Flags) (s : Scanner) : Except Fault (Token × Scanner) :=
  x.nextWithin flags s.allowance s

end Lexicon

end Lexing
