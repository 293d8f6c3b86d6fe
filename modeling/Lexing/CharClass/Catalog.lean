import Lexing.CharClass.Basic
import Lexing.Unicode.Blank
import Lexing.Unicode.Currency
import Lexing.Unicode.Digit
import Lexing.Unicode.Graphic
import Lexing.Unicode.Letter

/-!
# The catalog of classes

Classes that rules are commonly built from.
-/

namespace Lexing.CharClass

/-- Every code point. -/
def any : CharClass := .listed fun _ => true

/-- Currency signs of every script. -/
def currency : CharClass := .listed Unicode.isCurrency

/-- Decimal digits of every script. -/
def digit : CharClass := .listed Unicode.isDecimalDigit

/-- The digits `0` and `1`. -/
def binaryDigit : CharClass := .range '0' '1'

/-- The digits `0` to `7`. -/
def octalDigit : CharClass := .range '0' '7'

/-- The digits `0` to `9`. -/
def decimalDigit : CharClass := .range '0' '9'

/-- Whether `c` is a hexadecimal digit of either case. -/
def isHexDigit (c : Char) : Bool :=
  c.isDigit || ('a' ≤ c && c ≤ 'f') || ('A' ≤ c && c ≤ 'F')

/-- The digits `0` to `9`, `a` to `f` and `A` to `F`. -/
def hexDigit : CharClass := .listed isHexDigit

/-- Letters of every script. -/
def letter : CharClass := .listed Unicode.isLetter

/-- The letters `a` to `z` and `A` to `Z`. -/
def latinLetter : CharClass := .listed Char.isAlpha

/-- What a name begins with: a letter or an underscore. -/
def nameHead : CharClass := .listed fun c => c == '_' || Unicode.isLetter c

/-- What a name goes on with: a letter, a decimal digit or an underscore. -/
def nameTail : CharClass :=
  .listed fun c => c == '_' || Unicode.isLetter c || Unicode.isDecimalDigit c

/-- Code points with a shape of their own, and the ASCII space. -/
def graphic : CharClass := .listed Unicode.isGraphic

/-- Code points up to U+00FF. -/
def oneByte : CharClass := .range '\x00' '\u00FF'

/-- Code points up to U+FFFF. -/
def twoByte : CharClass := .range '\x00' '\uFFFF'

/-- The signs `+` and `-`. -/
def sign : CharClass := .listed fun c => c == '+' || c == '-'

/-- White space. -/
def blank : CharClass := .listed Unicode.isBlank

end Lexing.CharClass
