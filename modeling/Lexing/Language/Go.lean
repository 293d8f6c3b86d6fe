import Lexing.Lexicon

/-!
# The tokens of Go

Comments, runes, numbers, strings, names and operators. Newlines are significant: one after a token
that may end a statement becomes a semicolon, and every other one is dropped.

Comments are dropped unless the flag `keepComments` is on.
-/

namespace Lexing.Language.Go

/-! ### Words -/

/-- The flag that says whether comments are kept. -/
def keepComments : String := "keep_comments"

/-- The reserved words. -/
def keywords : List String := [
  "break", "case", "chan", "const", "continue", "default", "defer", "else", "fallthrough", "for",
  "func", "go", "goto", "if", "import", "interface", "map", "package", "range", "return", "select",
  "struct", "switch", "type", "var"]

/-- Operators, punctuation and the newline. -/
def operators : List String := [
  "+", "&", "+=", "&=", "&&", "==", "!=", "(", ")",
  "-", "|", "-=", "|=", "||", "<", "<=", "[", "]",
  "*", "^", "*=", "^=", "<-", ">", ">=", "\x7b", "\x7d",
  "/", "<<", "/=", "<<=", "++", "=", ":=", ",", ";",
  "%", ">>", "%=", ">>=", "--", "!", "...", ".", ":",
  "&^", "&^=", "~", "\n"]

/-- The kind of numbers with a fraction or an exponent. -/
def floatKind : String := "float"

/-- The kind of imaginary numbers. -/
def imaginaryKind : String := "imag"

/-- The kind of character literals. -/
def runeKind : String := "rune"

/-- The kind of string literals. -/
def stringKind : String := "string"

/-- The kinds of the tokens that may end a statement. -/
def statementEnds : List String := [
  Kind.identifier, Kind.integer, floatKind, imaginaryKind, runeKind, stringKind,
  "break", "continue", "fallthrough", "return", "++", "--", ")", "]", "\x7d"]

/-! ### Comments -/

/-- Comments between `/*` and `*/`. -/
def blockComment : CommentRule :=
  { CommentRule.between { words := .ofWords ["/*"] } { words := .ofWords ["*/"] } with
    keepFlag := some keepComments }

/-- Comments from `//` to the end of the line. -/
def lineComment : CommentRule :=
  { CommentRule.toLineEnd { words := .ofWords ["//"] } with keepFlag := some keepComments }

/-! ### Runes and strings -/

/-- The escapes of runes and strings. Two hexadecimal or three octal digits give a byte in a string
and a code point in a rune. -/
def escapes (asByte : Bool) : List Rule := [
  .charEscape .controls,
  .hexEscape (.twoAs asByte),
  .hexEscape .four,
  .hexEscape .eight,
  .octalEscape ⟨asByte⟩]

/-- Character literals. -/
def rune : Quotation :=
  { Quotation.marked '\x27' with kind := runeKind, maxLength := some 1 }

/-- Interpreted string literals. -/
def string : Quotation :=
  { Quotation.marked '\x22' with kind := stringKind }

/-- Raw string literals. -/
def rawString : Quotation :=
  { Quotation.between '\x60' '\x60' with kind := stringKind, multiline := true }

/-! ### Numbers -/

/-- The suffix `i`, which makes a number imaginary. -/
def imaginarySuffix : Rule :=
  .literal { words := .ofWords ["i"], kind := some imaginaryKind }

/-- Numbers with underscores between digits and, after a lead, before the first one. -/
def underscored (digit : CharClass) : Numeral :=
  { digit, separator := .single '_', leadingSeparator := true }

/-- Hexadecimal numbers, which may have a fraction and a binary exponent. -/
def hexadecimal : Numeral :=
  { underscored .hexDigit with
    point := .single '.'
    exponent := .oneOf ['p', 'P']
    exponentSign := .sign
    realKind := floatKind }

/-- Octal numbers. -/
def octal : Numeral := underscored .octalDigit

/-- Binary numbers. -/
def binary : Numeral := underscored .binaryDigit

/-- Decimal numbers. -/
def decimal : Numeral :=
  { Numeral.scientific with separator := .single '_', realKind := floatKind }

/-- The rule for a number after one of two leads. -/
def afterLead (f : Numeral) (leads : List String) : Rule :=
  .number f (some (.literal { words := .ofWords leads })) [imaginarySuffix]

/-! ### The lexicon -/

/-- Turns a newline into a semicolon if the token before it may end a statement, and drops it
otherwise. -/
def insertSemicolon (previousKind : String) (t : Token) : Token :=
  if t.kind ≠ "\n" then t
  else if statementEnds.contains previousKind then { t with kind := ";", value := ";" }
  else {}

/-- The rules, in the order in which they are tried. -/
def rules : List Rule := [
  .comment blockComment,
  .comment lineComment,
  .quotation rune (escapes false),
  afterLead hexadecimal ["0x", "0X"],
  afterLead octal ["0o", "0O"],
  afterLead binary ["0b", "0B"],
  .number decimal none [imaginarySuffix],
  .quotation string (escapes true),
  .quotation rawString [],
  .name { keywords },
  .literal { words := .ofWords operators }]

/-- The lexicon of Go. -/
def lexicon : Lexicon where
  discards := .oneOf [' ', '\t', '\r']
  rules := rules
  afterToken := fun _ t s => .ok (insertSemicolon s.previousKind t, s)

end Lexing.Language.Go
