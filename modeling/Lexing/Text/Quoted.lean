import Lexing.Unicode.Concealed

/-!
# Quoted text

Messages, tables and inspections show text between quotation marks. A code point that could be
misread there is escaped: the quotation mark itself, the backslash, the four common controls by a
letter, and every concealed code point by its number.

## Main definitions

* `quote` : a text between double quotation marks.
* `quoteChar` : a code point between single quotation marks.
-/

namespace Lexing.Quoted

/-- A code point as it stands between the marks `mark`. -/
def escape (mark c : Char) : List Char :=
  if c = '\x00' then ['\\', '0']
  else if c = '\t' then ['\\', 't']
  else if c = '\n' then ['\\', 'n']
  else if c = '\r' then ['\\', 'r']
  else if c = '\\' || c = mark then ['\\', c]
  else if Unicode.isConcealed c then
    "\\u\x7b".toList ++ Nat.toDigits 16 c.toNat ++ "\x7d".toList
  else [c]

/-- A list of code points between two marks. -/
def between (mark : Char) (text : List Char) : String :=
  String.ofList (mark :: (text.flatMap (escape mark) ++ [mark]))

end Lexing.Quoted

namespace Lexing

/-- A text between double quotation marks. -/
def quote (text : String) : String :=
  Quoted.between '\x22' text.toList

/-- A code point between single quotation marks. -/
def quoteChar (c : Char) : String :=
  Quoted.between '\x27' [c]

end Lexing
