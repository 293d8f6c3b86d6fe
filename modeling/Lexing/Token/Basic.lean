import Lexing.Report.Diagnostic

/-!
# Tokens

A token is a piece of the scanned text with a kind. Its literal is the text as it stands in the
source; its value leaves out what was skipped, such as quotation marks, and has escapes decoded.

Kinds are open labels: a token to which no rule gives a kind has its value as kind, so that each
keyword and operator is a kind of its own. The kinds that rules give by default are in `Kind`.
-/

namespace Lexing

/-! ### Kinds -/

namespace Kind

/-- The end of the text. -/
def endOfText : String := "end"

/-- A failure of the byte source. -/
def error : String := "error"

/-- Text that is malformed or that no rule matches. -/
def illegal : String := "illegal"

/-- A comment. -/
def comment : String := "comment"

/-- A name. -/
def identifier : String := "ident"

/-- A quoted text. -/
def string : String := "str"

/-- A number without fraction and exponent. -/
def integer : String := "int"

/-- A number with a fraction or an exponent. -/
def real : String := "real"

/-- A binary number. -/
def binary : String := "bin"

/-- An octal number. -/
def octal : String := "oct"

/-- A hexadecimal number. -/
def hexadecimal : String := "hex"

end Kind

/-! ### Tokens -/

/-- A piece of the scanned text. The default token is blank and stands nowhere. -/
structure Token where
  /-- The text without what was skipped and with escapes decoded. -/
  value : String := ""
  /-- The text as it stands in the source. -/
  literal : String := ""
  /-- The label of the token. -/
  kind : String := ""
  /-- Where the literal begins. -/
  position : Position := {}
  /-- The problems found in the token. -/
  diagnostics : List Diagnostic := []
  deriving DecidableEq, Repr, Inhabited

namespace Token

/-- Whether the token has neither value nor kind. Such a token is dropped. -/
def isBlank (t : Token) : Bool :=
  t.value.isEmpty && t.kind.isEmpty

/-- Whether the token marks the end of the text. -/
def isEnd (t : Token) : Bool :=
  t.kind == Kind.endOfText

/-- Whether a problem was found in the token. -/
def isIllegal (t : Token) : Bool :=
  !t.diagnostics.isEmpty

/-- Whether two lists of diagnostics agree item by item. -/
def agreeAll : List Diagnostic → List Diagnostic → Bool
  | [], [] => true
  | d :: ds, e :: es => d.agrees e && agreeAll ds es
  | _, _ => false

/-- Whether two tokens are equal up to the causes of their diagnostics. -/
def agrees (t u : Token) : Bool :=
  t.value == u.value && t.literal == u.literal && t.kind == u.kind &&
    t.position == u.position && agreeAll t.diagnostics u.diagnostics

/-- A text on one line, with a sign for each line feed. -/
def onOneLine (s : String) : String :=
  String.ofList (s.toList.map fun c => if c = '\n' then '\u21B5' else c)

/-- The token as it stands in logs: place, kind and value, the literal if it differs from the value,
and each diagnostic on a line of its own. -/
def text (t : Token) : String :=
  place ++ t.kind ++ " " ++ onOneLine t.value ++ source ++ reports
where
  /-- The line and the column, if one of them is known. -/
  place : String :=
    if t.position.line = 0 ∧ t.position.column = 0 then ""
    else t.position.line.toNat.repr ++ ":" ++ t.position.column.toNat.repr ++ " "
  /-- The literal, if it differs from the value. -/
  source : String :=
    if t.literal = t.value then "" else " [lit] " ++ onOneLine t.literal
  /-- The diagnostics, each after a line feed. -/
  reports : String :=
    String.join (t.diagnostics.map fun d => "\n" ++ d.text)

end Token

end Lexing
