import Lexing.Lexicon

/-!
# The tokens of JSON

Strings, numbers, punctuation and the three literal names. A string stays on its line. A number has
no superfluous leading zero and has digits on both sides of its point.
-/

namespace Lexing.Language.Json

/-- What may stand between tokens. -/
def discards : CharClass := .oneOf [' ', '\n', '\r', '\t']

/-- Punctuation and literal names. -/
def words : List String :=
  ["\x7b", "\x7d", "[", "]", ":", ",", "true", "false", "null"]

/-- The escapes of strings: a letter or a slash, or four hexadecimal digits. -/
def escapes : List Rule := [
  .charEscape ⟨[.backspace, .formFeed, .lineFeed, .carriageReturn, .horizontalTab, ⟨'/', '/'⟩]⟩,
  .hexEscape .four]

/-- Strings. -/
def string : Quotation := .marked '\x22'

/-- Numbers. -/
def number : Numeral :=
  { Numeral.scientific with sign := .single '-', leadingZero := false, emptyParts := false }

/-- The lexicon of JSON. -/
def lexicon : Lexicon where
  discards := discards
  rules := [.quotation string escapes, .number number none [], .literal { words := .ofWords words }]

end Lexing.Language.Json
