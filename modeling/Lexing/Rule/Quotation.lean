import Lexing.Rule.Outcome
import Lexing.Scanner.Emission
import Lexing.Scanner.Move

/-!
# Rule for quoted texts

A quoted text stands between two delimiters, which are skipped. After an escape flag, the closing
delimiter and the flag itself stand for themselves, and escape rules decode everything else. If
delimiters may be nested, inner ones are paired.

Malformed text does not stop a scan. After an escape that is not valid, or a character beyond the
greatest length, the rule consumes the text up to the closing delimiter, so that one illegal token
results. A text that is not closed ends at the end of the line, or at the end of the text if it may
extend over several lines.

## Main definitions

* `Quotation` : the delimiters of quoted texts and what may stand between them.
* `Quotation.scan` : matches a quoted text.
-/

namespace Lexing

/-- The delimiters of quoted texts and what may stand between them. -/
structure Quotation where
  /-- What a quoted text begins with. -/
  opening : Char
  /-- What a quoted text ends with. -/
  closing : Char
  /-- The kind of a quoted text. -/
  kind : String := Kind.string
  /-- What an escape begins with, if there are escapes. -/
  escape : Option Char := none
  /-- Whether a quoted text may extend over several lines. -/
  multiline : Bool := false
  /-- The greatest number of characters, escapes counted as one. -/
  maxLength : Option Nat := none
  /-- Whether inner delimiters are paired. -/
  nested : Bool := false
  ne_of_nested : nested = true → opening ≠ closing := by decide

namespace Quotation

/-- Quoted texts between two delimiters, without escapes. -/
def between (opening closing : Char) : Quotation :=
  { opening, closing, ne_of_nested := by simp }

/-- Quoted texts between two equal marks, with a backslash as escape flag. -/
def marked (mark : Char) : Quotation :=
  { between mark mark with escape := some '\\' }

/-- The same texts with or without nesting, for which the delimiters have to differ. -/
def withNesting? (q : Quotation) (nested : Bool) : Except RuleError Quotation :=
  if h : nested = true → q.opening ≠ q.closing then .ok { q with nested, ne_of_nested := h }
  else .error (.nestingDelimiters q.opening)

/-- Whether there is a code point and it is the escape flag. -/
def isEscape (q : Quotation) (c : Option Char) : Bool :=
  c.isSome && c == q.escape

/-- Whether a code point ends the line that a quoted text has to stay on. -/
def endsLine (q : Quotation) (c : Char) : Bool :=
  c == '\n' && !q.multiline

/-- The depth of nesting after the code point `c`. -/
def depthAfter (q : Quotation) (depth : Nat) (c : Char) : Nat :=
  if !q.nested then depth
  else if c = q.opening then depth + 1
  else if c = q.closing then depth - 1
  else depth

/-! ### Recovery -/

/-- Moves past an escape flag and the code point after it, unless that ends the line. -/
def passEscape (q : Quotation) (m : Move) (s : Scanner) : Scanner :=
  let t := m.apply s
  if t.current?.any q.endsLine then t else m.apply t

/-- Moves up to the closing delimiter, which is skipped, or to the end of the line or text. Each
pass consumes at least one code point of `bound`. -/
def recoverWithin (q : Quotation) (m : Move) : List Char → Scanner → Scanner
  | [], s => s.reject .unterminatedString
  | _ :: bound, s =>
    match s.current? with
    | none => s.reject .unterminatedString
    | some c =>
      if q.endsLine c then s.reject .unterminatedString
      else if c = q.closing then s.skip
      else if q.isEscape (some c) then recoverWithin q m bound (q.passEscape m s)
      else recoverWithin q m bound (m.apply s)

/-- Moves up to the closing delimiter, which is skipped, or to the end of the line or text. -/
def recover (q : Quotation) (m : Move) (s : Scanner) : Scanner :=
  q.recoverWithin m s.upcoming.chars s

/-! ### Quoted texts -/

/-- Decodes what stands after the escape flag `flag`. -/
def unescape (q : Quotation) (escapes : Scanner → Outcome) (flag : Char) (s : Scanner) :
    Except Fault Scanner :=
  if s.current? = some q.closing || q.isEscape s.current? then .ok s.keep
  else do
    let (decoded, t) ← escapes s
    if decoded then return t
    return t.reject (.invalidEscape (String.ofList (flag :: s.current?.toList)))

/-- Consumes a quoted text after its opening delimiter. The numbers are a bound on the passes, the
depth of nesting and the length so far. -/
def body (q : Quotation) (escapes : Scanner → Outcome) :
    Nat → Nat → Nat → Scanner → Except Fault Scanner
  | 0, _, _, s => .error (.endless s.position)
  | bound + 1, depth, length, s =>
    match s.current? with
    | none => .ok (s.reject .unterminatedString)
    | some c =>
      if c = q.closing ∧ depth = 0 then .ok s.skip
      else if q.endsLine c then .ok (s.reject .unterminatedString)
      else if q.maxLength = some length then
        .ok (q.recover .skip (s.reject (.tooManyCharacters (length + 1))))
      else if q.isEscape (some c) then do
        let t ← q.unescape escapes c s.skip
        if s.draft.diagnostics.size < t.draft.diagnostics.size then return q.recover .keep t
        body q escapes bound depth (length + 1) t
      else body q escapes bound (q.depthAfter depth c) (length + 1) s.keep

/-- Matches a quoted text whose escapes are decoded as given. -/
def scan (q : Quotation) (escapes : Scanner → Outcome) (s : Scanner) : Outcome :=
  if s.current? = some q.opening then do
    let t := s.skip.setKind q.kind
    return (true, ← q.body escapes (t.allowance + q.maxLength.getD 0 + 1) 0 0 t)
  else .ok (false, s)

end Quotation

end Lexing
