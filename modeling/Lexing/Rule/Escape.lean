import Lexing.CharClass.Catalog
import Lexing.Report.Fault
import Lexing.Scanner.Move

/-!
# Rules for escapes

These rules decode one escape after its flag, such as a backslash, was skipped. A character escape
is a single code point that stands for another. A numeric escape gives the number of a code point,
or the value of a single byte, in hexadecimal or octal digits. Digits that are missing or that give
no code point are reported and left upcoming.

## Main definitions

* `CharEscape` : code points by the code points that stand for them.
* `HexEscape` : two, four or eight hexadecimal digits after a letter.
* `OctalEscape` : three octal digits.
-/

namespace Lexing

/-! ### Character escapes -/

/-- A code point and the code point that it stands for. -/
structure CharCode where
  sign : Char
  meaning : Char
  deriving DecidableEq, Repr

namespace CharCode

/-- The letter `a` for the bell. -/
def alert : CharCode := ⟨'a', '\x07'⟩

/-- The letter `b` for the backspace. -/
def backspace : CharCode := ⟨'b', '\x08'⟩

/-- The letter `f` for the form feed. -/
def formFeed : CharCode := ⟨'f', '\x0c'⟩

/-- The letter `n` for the line feed. -/
def lineFeed : CharCode := ⟨'n', '\n'⟩

/-- The letter `r` for the carriage return. -/
def carriageReturn : CharCode := ⟨'r', '\r'⟩

/-- The letter `t` for the horizontal tab. -/
def horizontalTab : CharCode := ⟨'t', '\t'⟩

/-- The letter `v` for the vertical tab. -/
def verticalTab : CharCode := ⟨'v', '\x0b'⟩

end CharCode

/-- Decodes single code points by a table. -/
structure CharEscape where
  /-- The table. Of two entries for one code point the later one holds. -/
  table : List CharCode
  deriving DecidableEq, Repr

namespace CharEscape

/-- The seven letters for controls. -/
def controls : CharEscape :=
  ⟨[.alert, .backspace, .formFeed, .lineFeed, .carriageReturn, .horizontalTab, .verticalTab]⟩

/-- What a code point stands for. -/
def lookup? (e : CharEscape) (c : Char) : Option Char :=
  (e.table.reverse.find? fun code => code.sign == c).map CharCode.meaning

/-- Decodes the current code point. -/
def attempt (e : CharEscape) (s : Scanner) : Option Scanner :=
  (s.current?.bind e.lookup?).map fun c => (s.pushChar c).skip

end CharEscape

/-! ### Numeric escapes -/

/-- The value of a digit of either case. -/
def digitValue (c : Char) : Nat :=
  if c.isDigit then c.toNat - '0'.toNat
  else if 'a' ≤ c then c.toNat - 'a'.toNat + 10
  else c.toNat - 'A'.toNat + 10

/-- The number that digits denote in a base. -/
def digitsValue (base : Nat) (digits : List Char) : Nat :=
  digits.foldl (fun n c => n * base + digitValue c) 0

/-- Up to `n` upcoming code points that belong to a class. -/
def Scanner.upcomingDigits (s : Scanner) (n : Nat) (k : CharClass) : List Char :=
  (s.upcoming.chars.take n).takeWhile k.contains

/-- Reports digits that denote nothing. -/
def Scanner.rejectDigits (s : Scanner) (digits : List Char) : Scanner :=
  s.reject (.invalidEncoding (String.ofList digits))

/-- Decodes a letter followed by a fixed number of hexadecimal digits. -/
structure HexEscape where
  /-- The letter. -/
  flag : Char
  /-- The number of digits. -/
  width : Nat
  /-- Whether the digits give a byte rather than a code point. -/
  asByte : Bool := false
  width_mem : width ∈ [2, 4, 8] := by decide
  width_of_asByte : asByte = true → width = 2 := by decide

namespace HexEscape

/-- The escape with the given letter and number of digits. -/
def ofWidth? (flag : Char) (width : Nat) : Except RuleError HexEscape :=
  if h : width ∈ [2, 4, 8] then
    .ok { flag, width, width_mem := h, width_of_asByte := by simp }
  else .error (.hexWidth width)

/-- The letter `x` and two digits. -/
def two : HexEscape := { flag := 'x', width := 2 }

/-- The letter `u` and four digits. -/
def four : HexEscape := { flag := 'u', width := 4 }

/-- The letter `U` and eight digits. -/
def eight : HexEscape := { flag := 'U', width := 8 }

/-- The letter `x` and two digits that may give a byte. -/
def twoAs (asByte : Bool) : HexEscape :=
  { flag := 'x', width := 2, asByte, width_of_asByte := fun _ => rfl }

/-- The escape with digits that give a byte or a code point. -/
def withByte? (e : HexEscape) (asByte : Bool) : Except RuleError HexEscape :=
  if h : asByte = true → e.width = 2 then .ok { e with asByte, width_of_asByte := h }
  else .error (.byteWidth e.width)

/-- Decodes the digits after the letter. -/
def decodeDigits (e : HexEscape) (s : Scanner) : Scanner :=
  let digits := s.upcomingDigits e.width .hexDigit
  let n := digitsValue 16 digits
  if digits.length ≠ e.width then s.rejectDigits digits
  else if e.asByte then (s.times e.width .skip).pushByte (.ofNat n)
  else match Utf8.scalar? n with
    | some c => (s.times e.width .skip).pushChar c
    | none => s.rejectDigits digits

/-- Decodes an escape that begins with the letter. -/
def attempt (e : HexEscape) (s : Scanner) : Option Scanner :=
  if s.current? = some e.flag then some (e.decodeDigits s.skip) else none

end HexEscape

/-- Decodes three octal digits of a number up to 255. -/
structure OctalEscape where
  /-- Whether the digits give a byte rather than a code point. -/
  asByte : Bool := false
  deriving DecidableEq, Repr

/-- Decodes an escape that begins with an octal digit. -/
def OctalEscape.attempt (e : OctalEscape) (s : Scanner) : Option Scanner :=
  if !s.isIn .octalDigit then none
  else
    let digits := s.upcomingDigits 3 .octalDigit
    let n := digitsValue 8 digits
    if digits.length ≠ 3 || 255 < n then some (s.rejectDigits digits)
    else if e.asByte then some ((s.times 3 .skip).pushByte (.ofNat n))
    else some ((s.times 3 .skip).pushChar (.ofNat n))

end Lexing
