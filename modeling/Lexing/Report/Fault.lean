import Lexing.Report.Position

/-!
# Errors of configuration and faults

A rule may be refused when it is configured (`RuleError`), and rules that were accepted may still
fail to scan because they match without consuming text (`Fault`). Tokens that are too wide for a
table are a fault as well. None of these is a problem of the scanned text.
-/

namespace Lexing

/-- Why the configuration of a rule is refused. -/
inductive RuleError where
  /-- A hexadecimal escape reads 2, 4 or 8 digits. -/
  | hexWidth (digits : Nat)
  /-- An escape that stands for a byte reads 2 hexadecimal digits. -/
  | byteWidth (digits : Nat)
  /-- Nested quoted texts have two different delimiters. -/
  | nestingDelimiters (delimiter : Char)
  /-- A literal has at least one code point. -/
  | emptyLiteral
  deriving DecidableEq, Repr

namespace RuleError

/-- The wording of an error. -/
def message : RuleError → String
  | hexWidth digits =>
    "invalid hex escape width: " ++ digits.repr ++ " (expected 2, 4, or 8)"
  | byteWidth digits => "raw-byte escape requires 2 hex digits, not " ++ digits.repr
  | nestingDelimiters delimiter =>
    "nested strings require distinct delimiters, not " ++ quoteChar delimiter ++ " and " ++
      quoteChar delimiter
  | emptyLiteral => "empty literal"

/-- The kind of rule that an error is about. -/
def subject : RuleError → String
  | hexWidth _ | byteWidth _ => "hex escape"
  | nestingDelimiters _ => "string"
  | emptyLiteral => "literal"

/-- The wording with which a configuration is abandoned. -/
def refusal (e : RuleError) : String :=
  "invalid " ++ e.subject ++ " rule: " ++ e.message

/-- The name of an error with its parts. -/
def inspect : RuleError → String
  | hexWidth digits => Inspect.tuple "HexWidth" [digits.repr]
  | byteWidth digits => Inspect.tuple "ByteWidth" [digits.repr]
  | nestingDelimiters delimiter => Inspect.tuple "NestingDelimiters" [quoteChar delimiter]
  | emptyLiteral => "EmptyLiteral"

end RuleError

/-- Why a scan or a table is abandoned. -/
inductive Fault where
  /-- Too many tokens in a row were emitted without consuming text. -/
  | stalled (place : Position) (count : Nat)
  /-- A pass over all rules dropped its token without consuming text. -/
  | noProgress (place : Position)
  /-- The rule that runs between tokens matched without consuming text. -/
  | discardNoProgress (place : Position)
  /-- A rule of the user moves back and forth without end. -/
  | endless (place : Position)
  /-- A column of a table exceeds the greatest width. -/
  | columnTooWide
  deriving DecidableEq, Repr

/-- The wording of a fault. -/
def Fault.message : Fault → String
  | stalled place count =>
    "scanner stalled at " ++ place.text ++ ": " ++ count.repr ++
      " tokens emitted without consuming input"
  | noProgress place => "rule set made no progress at " ++ place.text
  | discardNoProgress place => "discard rule made no progress at " ++ place.text
  | endless place => "scan does not end at " ++ place.text
  | columnTooWide => "Formatting argument out of range"

end Lexing
