import Lexing.Report.Position

/-!
# Diagnostics

A diagnostic reports a problem in the scanned text. It is attached to the token in which the problem
was found, and scanning goes on after it.
-/

namespace Lexing

/-- What may be wrong with a text. -/
inductive Problem where
  /-- No rule matches the text. -/
  | unexpected (text : String)
  /-- A quoted text is not closed. -/
  | unterminatedString
  /-- A comment is not closed. -/
  | unterminatedComment
  /-- A quoted text has a character beyond its limit, namely its `count`-th. -/
  | tooManyCharacters (count : Nat)
  /-- An escape that no rule decodes. -/
  | invalidEscape (text : String)
  /-- A numeric escape with too few digits, or whose number is no code point. -/
  | invalidEncoding (digits : String)
  /-- The bytes of a value are not well-formed UTF-8; `value` is their lossy decoding. -/
  | malformedValue (value : String)
  /-- The byte source failed. -/
  | unreadable
  /-- A problem that a rule of the user found. -/
  | custom (message : String)
  deriving DecidableEq, Repr

/-- The wording of a problem. -/
def Problem.message : Problem → String
  | unexpected text => "unexpected " ++ quote text
  | unterminatedString => "unterminated string"
  | unterminatedComment => "unterminated comment"
  | tooManyCharacters count => "too many characters (" ++ count.repr ++ ")"
  | invalidEscape text => "invalid escape sequence: " ++ quote text
  | invalidEncoding digits => "invalid encoding: " ++ quote digits
  | malformedValue value => "invalid UTF-8 in value " ++ quote value
  | unreadable => "error reading stream"
  | custom message => message

/-- A problem at a place in the text. -/
structure Diagnostic where
  /-- Where the problem is. -/
  position : Position
  /-- What is wrong. -/
  problem : Problem
  /-- The failure behind the problem, if there is one. -/
  cause : Option String := none
  deriving DecidableEq, Repr

namespace Diagnostic

/-- The wording of the problem. -/
def message (d : Diagnostic) : String :=
  d.problem.message

/-- The diagnostic as one line of output. -/
def text (d : Diagnostic) : String :=
  d.position.text ++ ": error: " ++ d.message ++ d.cause.elim "" (": " ++ ·)

/-- Whether two diagnostics say the same about the same place. Causes are not compared. -/
def agrees (d e : Diagnostic) : Bool :=
  d.position == e.position && d.message == e.message

/-- The fields of a diagnostic. -/
def inspect (d : Diagnostic) : String :=
  Inspect.record "Diagnostic" [
    ("pos", d.position.inspect),
    ("message", quote d.message),
    ("cause", Inspect.optional (d.cause.map quote))]

end Diagnostic

end Lexing
