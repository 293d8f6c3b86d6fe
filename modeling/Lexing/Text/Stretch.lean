/-!
# Stretches of text

A stretch is a list of code points whose length is kept beside it. Loops over a text take their
bounds from the length without counting. A scanner stands between two stretches, the one consumed
and the one upcoming, and both begin at the scanner, so that moving over a code point takes it from
the front of the one and puts it to the front of the other.

## Main definitions

* `Stretch.cons`, `Stretch.cons?`, `Stretch.tail` : add and remove the first code point.
* `Stretch.append` : adds code points at the end.
-/

namespace Lexing

/-- A list of code points with its length. -/
structure Stretch where
  /-- The code points. -/
  chars : List Char
  /-- The number of code points. -/
  size : Nat
  size_eq : size = chars.length
  deriving DecidableEq, Repr

namespace Stretch

/-- Two stretches with the same code points are equal. -/
@[ext]
theorem ext {u v : Stretch} (h : u.chars = v.chars) : u = v := by
  obtain ⟨cs, n, hn⟩ := u
  obtain ⟨ds, m, hm⟩ := v
  obtain rfl : cs = ds := h
  obtain rfl : n = m := hn.trans hm.symm
  rfl

/-- The stretch without code points. -/
def empty : Stretch := ⟨[], 0, rfl⟩

/-- The stretch with the given code points. -/
def ofList (cs : List Char) : Stretch :=
  ⟨cs, cs.length, rfl⟩

/-- Whether there is no code point. -/
def isEmpty (u : Stretch) : Bool :=
  u.chars.isEmpty

/-- The stretch with one more code point at its front. -/
def cons (u : Stretch) (c : Char) : Stretch :=
  ⟨c :: u.chars, u.size + 1, by simp [u.size_eq]⟩

/-- The stretch without its first code point. -/
def tail (u : Stretch) : Stretch :=
  ⟨u.chars.tail, u.size - 1, by simp [u.size_eq]⟩

/-- The stretch with one more code point at its front, if there is one. -/
def cons? (u : Stretch) (c : Option Char) : Stretch :=
  c.elim u u.cons

/-- The stretch followed by the code points of a list. -/
def append (u : Stretch) (cs : List Char) : Stretch :=
  ⟨u.chars ++ cs, u.size + cs.length, by simp [u.size_eq]⟩

@[simp]
theorem chars_empty : empty.chars = [] := rfl

@[simp]
theorem chars_ofList (cs : List Char) : (ofList cs).chars = cs := rfl

@[simp]
theorem chars_cons (u : Stretch) (c : Char) : (u.cons c).chars = c :: u.chars := rfl

@[simp]
theorem chars_tail (u : Stretch) : u.tail.chars = u.chars.tail := rfl

@[simp]
theorem chars_cons? (u : Stretch) (c : Option Char) :
    (u.cons? c).chars = c.toList ++ u.chars := by
  cases c <;> rfl

@[simp]
theorem chars_append (u : Stretch) (cs : List Char) : (u.append cs).chars = u.chars ++ cs := rfl

end Stretch

end Lexing
