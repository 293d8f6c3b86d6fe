import Lexing.Report.Fault
import Lexing.Scanner.Basic

/-!
# Emission of tokens

Emitting turns the draft of a scanner into a token and begins a new draft at the current position.

A draft with an empty literal reports a failure of the byte source that was noticed, or else the end
of the text if it is reached. A draft without a kind has its value as kind. A value that is not
well-formed UTF-8 makes the token illegal.

Emitting too many tokens in a row without consuming text is a fault: some rule matches without
consuming.

## Main definitions

* `Scanner.emit` : the token of the draft.
* `Scanner.allowance` : a bound on the passes of a loop whose body may be any rule.
-/

namespace Lexing.Scanner

/-- The number of tokens in a row that may be emitted without consuming text. -/
def maxStalls : Nat := 16

/-- A number of passes that no run of the program reaches. Where functions of the user take part,
the number of passes cannot be told from the text: such a function may count on its own, and a token
that it calls an end is no stall. -/
def patience : Nat := 1 <<< 62

/-- A bound on the passes of a loop whose body may be any rule. The text that such a loop can move
over never grows, and it can stand still for `maxStalls` tokens only, unless a function of the user
keeps it going, for which there is `patience`. -/
def allowance (s : Scanner) : Nat :=
  let size := s.draft.latestChars.size + s.upcoming.size + 1
  patience + 2 * maxStalls * (size * size)

/-- The number of tokens emitted without consuming text, after one of the given kind. -/
def countStall (s : Scanner) (kind : String) : Except Fault Nat :=
  if !s.draft.isUnread || kind = Kind.endOfText then .ok 0
  else if maxStalls < s.stalls + 1 then .error (.stalled s.position (s.stalls + 1))
  else .ok (s.stalls + 1)

/-- The token that reports a failure of the byte source. -/
def emitFailure (s : Scanner) (report : Diagnostic) : Token × Scanner :=
  ({ kind := Kind.error
     position := s.start
     diagnostics := (s.draft.diagnostics.push report).toList },
   { s with failure := none }.restart)

/-- Rejects the draft if its value is not well-formed UTF-8. -/
def checkValue (s : Scanner) : Scanner :=
  if (Utf8.decode? s.draft.value).isSome then s
  else s.reject (.malformedValue s.valueText)

/-- The kind of the token: the value if no rule has given one. -/
def emittedKind (s : Scanner) : String :=
  if s.draft.kind.isEmpty then s.valueText else s.draft.kind

/-- The token that the draft has become. -/
def assembled (s : Scanner) : Token where
  value := s.valueText
  literal := s.literalText
  kind := s.emittedKind
  position := s.start
  diagnostics := s.draft.diagnostics.toList

/-- The token of the draft as it stands. -/
def emitDraft (s : Scanner) : Except Fault (Token × Scanner) := do
  let s := s.checkValue
  let stalls ← s.countStall s.emittedKind
  return (s.assembled, { s with stalls }.restart)

/-- The token of the draft. -/
def emit (s : Scanner) : Except Fault (Token × Scanner) :=
  if s.draft.isUnread then
    match s.failure with
    | some report => .ok (s.emitFailure report)
    | none => if s.atEnd then (s.setKind Kind.endOfText).emitDraft else s.emitDraft
  else s.emitDraft

end Lexing.Scanner
