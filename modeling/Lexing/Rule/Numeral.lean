import Lexing.CharClass.Catalog
import Lexing.Rule.Outcome
import Lexing.Scanner.Move

/-!
# Rule for numbers

A number has up to six parts, in this order: a sign, a lead such as `0x`, digits, a fraction, an
exponent and a suffix. Only the digits are required, before or after the decimal separator. A digit
separator is skipped between two digits.

The lead and the suffix are matched by other rules, so the rule is parametrised by what these do to
a scanner. A number that fails gives back all that was consumed for the token.

## Main definitions

* `Numeral` : which parts a number may have.
* `Numeral.scan` : matches a number.
-/

namespace Lexing

/-- Which parts a number may have and how it is labelled. -/
structure Numeral where
  /-- The digits. -/
  digit : CharClass
  /-- Signs before the number. -/
  sign : CharClass := .empty
  /-- What may stand between two digits. -/
  separator : CharClass := .empty
  /-- What divides a fraction from the digits before it. -/
  point : CharClass := .empty
  /-- What an exponent begins with. -/
  exponent : CharClass := .empty
  /-- Signs of an exponent. -/
  exponentSign : CharClass := .empty
  /-- The kind of every number, if it does not depend on the parts. -/
  kind : Option String := none
  /-- The kind of a number without fraction and exponent. -/
  integerKind : String := Kind.integer
  /-- The kind of a number with a fraction or an exponent. -/
  realKind : String := Kind.real
  /-- Whether a separator may stand before the first digit. -/
  leadingSeparator : Bool := false
  /-- Whether further digits may stand after a leading zero. -/
  leadingZero : Bool := true
  /-- Whether digits may be missing on one side of the decimal separator. -/
  emptyParts : Bool := true

namespace Numeral

/-! ### Common numbers -/

/-- Binary digits. -/
def binary : Numeral := { digit := .binaryDigit, kind := some Kind.binary }

/-- Octal digits. -/
def octal : Numeral := { digit := .octalDigit, kind := some Kind.octal }

/-- Hexadecimal digits. -/
def hexadecimal : Numeral := { digit := .hexDigit, kind := some Kind.hexadecimal }

/-- Decimal digits. -/
def integer : Numeral := { digit := .decimalDigit }

/-- Decimal digits with an optional fraction. -/
def decimal : Numeral := { integer with point := .single '.' }

/-- Decimal digits with an optional fraction and an optional exponent. -/
def scientific : Numeral :=
  { decimal with exponent := .oneOf ['e', 'E'], exponentSign := .sign }

/-- The same numbers with an optional sign. -/
def signed (f : Numeral) : Numeral := { f with sign := .sign }

/-- The same numbers, all with one kind. -/
def withKind (f : Numeral) (kind : String) : Numeral := { f with kind := some kind }

/-- The same numbers with a kind for those without fraction and exponent. -/
def withIntegerKind (f : Numeral) (kind : String) : Numeral :=
  { f with kind := none, integerKind := kind }

/-- The same numbers with a kind for those with a fraction or an exponent. -/
def withRealKind (f : Numeral) (kind : String) : Numeral :=
  { f with kind := none, realKind := kind }

/-! ### Parts of a number -/

/-- Whether a separator stands between two digits. -/
def separates (f : Numeral) (s : Scanner) : Bool :=
  s.isIn f.separator && s.followingIn f.digit && f.digit.covers (s.peek? (-1))

/-- Consumes digits and the separators between them, at most one code point per code point of
`bound`. The result says whether a digit was consumed, or `seen` was. -/
def digitsWithin (f : Numeral) : List Char → Bool → Scanner → Bool × Scanner
  | [], seen, s => (seen, s)
  | _ :: bound, seen, s =>
    if s.isIn f.digit then digitsWithin f bound true s.keep
    else if f.separates s then digitsWithin f bound seen s.skip
    else (seen, s)

/-- Consumes digits and the separators between them. The result says whether a digit was consumed.
-/
def digits (f : Numeral) (s : Scanner) : Bool × Scanner :=
  f.digitsWithin s.upcoming.chars false s

/-- Consumes a sign. -/
def takeSign (f : Numeral) (s : Scanner) : Scanner :=
  if s.isIn f.sign then s.keep else s

/-- Skips a separator before the first digit, where it is allowed. -/
def passLeadingSeparator (f : Numeral) (s : Scanner) : Scanner :=
  if f.leadingSeparator && s.isIn f.separator && s.followingIn f.digit then s.skip else s

/-- Whether a zero stands next that is a number on its own, because no digits may follow it. -/
def isLoneZero (f : Numeral) (s : Scanner) : Bool :=
  !f.leadingZero && s.current? == some '0' && !s.followingIn f.point && !s.followingIn f.exponent

/-- Consumes a fraction after the digits, of which `seen` says whether there are any. The result
says whether there are digits before or after the decimal separator. -/
def fraction (f : Numeral) (seen : Bool) (s : Scanner) : Bool × Scanner :=
  if s.isIn f.point && (f.emptyParts || (seen && s.followingIn f.digit)) then
    let (more, t) := f.digits (s.setKind f.realKind).keep
    (seen || more, t)
  else (seen, s)

/-- Whether an exponent with at least one digit stands next. -/
def exponentFollows (f : Numeral) (s : Scanner) : Bool :=
  s.isIn f.exponent &&
    (s.followingIn f.digit || (s.followingIn f.exponentSign && f.digit.covers (s.peek? 2)))

/-- Consumes an exponent. -/
def exponentPart (f : Numeral) (s : Scanner) : Scanner :=
  if f.exponentFollows s then
    let t := (s.setKind f.realKind).keep
    (f.digits (if t.isIn f.exponentSign then t.keep else t)).2
  else s

/-- Consumes digits, fraction and exponent. The result says whether there was a digit. -/
def body (f : Numeral) (s : Scanner) : Bool × Scanner :=
  if f.isLoneZero s then (true, s.keep)
  else
    let (whole, t) := f.digits s
    let (seen, u) := f.fraction whole t
    if seen then (true, f.exponentPart u) else (false, u)

/-- Matches a number whose lead and suffix are matched as given. The lead must match; the suffix
need not. -/
def scan (f : Numeral) (lead suffix : Scanner → Outcome) (s : Scanner) : Outcome := do
  let (led, s) ← lead (f.takeSign s)
  if !led then return (false, s.rewind)
  let (seen, s) := f.body (f.passLeadingSeparator (s.setKind f.integerKind))
  if !seen then return (false, s.rewind)
  let (_, s) ← suffix (s.setKind? f.kind)
  return (true, s)

end Numeral

end Lexing
