import Lexing.Report.Diagnostic
import Lexing.Text.Stretch

/-!
# Drafts of tokens

A draft is a token that is being assembled. It collects the literal, which receives every consumed
code point, and the value, which receives only the code points that are kept and those that escapes
stand for. The value is a list of bytes, because an escape may stand for a single byte of a code
point.

Both are stored with the latest entry first, so that adding an entry takes the same time however
long they are. `Draft.literal` and `Draft.value` give them in order.

## Main definitions

* `Draft` : a token that is being assembled.
* `Draft.literal`, `Draft.value` : the code points consumed and the bytes of the value.
-/

namespace Lexing

/-- A token that is being assembled. -/
structure Draft where
  /-- The bytes of the value, the latest first. -/
  latestBytes : List UInt8 := []
  /-- The code points consumed, the latest first. -/
  latestChars : Stretch := .empty
  /-- The kind, empty if no rule has given one. -/
  kind : String := ""
  /-- The problems found. -/
  diagnostics : Array Diagnostic := #[]
  deriving DecidableEq, Repr

namespace Draft

/-! ### Views -/

/-- The bytes of the value. -/
def value (d : Draft) : List UInt8 :=
  d.latestBytes.reverse

/-- The code points consumed. -/
def literal (d : Draft) : List Char :=
  d.latestChars.chars.reverse

/-- Whether no code point was consumed. -/
def isUnread (d : Draft) : Bool :=
  d.latestChars.isEmpty

@[simp]
theorem value_empty : ({} : Draft).value = [] := rfl

@[simp]
theorem literal_empty : ({} : Draft).literal = [] := rfl

/-- Whether no code point was consumed is seen from the literal. -/
theorem isUnread_eq (d : Draft) : d.isUnread = d.literal.isEmpty := by
  simp [isUnread, literal, Stretch.isEmpty]

/-! ### Additions -/

/-- Appends a byte to the value. -/
def pushByte (d : Draft) (b : UInt8) : Draft :=
  { d with latestBytes := b :: d.latestBytes }

/-- Appends a code point to the value. -/
def pushChar (d : Draft) (c : Char) : Draft :=
  { d with latestBytes := (String.utf8EncodeChar c).reverse ++ d.latestBytes }

/-- Appends a code point to the literal. -/
def pushLiteral (d : Draft) (c : Char) : Draft :=
  { d with latestChars := d.latestChars.cons c }

@[simp]
theorem value_pushByte (d : Draft) (b : UInt8) : (d.pushByte b).value = d.value ++ [b] := by
  simp [value, pushByte]

@[simp]
theorem value_pushChar (d : Draft) (c : Char) :
    (d.pushChar c).value = d.value ++ String.utf8EncodeChar c := by
  simp [value, pushChar]

@[simp]
theorem value_pushLiteral (d : Draft) (c : Char) : (d.pushLiteral c).value = d.value := rfl

@[simp]
theorem literal_pushByte (d : Draft) (b : UInt8) : (d.pushByte b).literal = d.literal := rfl

@[simp]
theorem literal_pushChar (d : Draft) (c : Char) : (d.pushChar c).literal = d.literal := rfl

@[simp]
theorem literal_pushLiteral (d : Draft) (c : Char) :
    (d.pushLiteral c).literal = d.literal ++ [c] := by
  simp [literal, pushLiteral]

end Draft

end Lexing
