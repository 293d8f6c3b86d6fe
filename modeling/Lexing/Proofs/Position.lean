import Lexing.Report.Position
import Mathlib.Data.List.Induction
import Mathlib.Data.List.TakeWhile

/-!
# Positions after a text

Advancing a position code point by code point gives the position that is counted afresh: the line is
one more than the number of line feeds, and the column one more than the number of code points since
the last of them. Lines and columns are numbers of 32 bits. As long as both fit, the count is exact.
Beyond that it goes on from 0.

A position moves with every code point. So a scan that consumes text does not stand where it stood
before, unless it consumes as many code points as there are numbers.

## Main definitions

* `Position.after` : the position after a text, counted afresh.
* `Position.Counts` : the numbers of a position are those of a text.

## Main results

* `Position.advanceAll_start` : advancing over a text leads to the position after it.
* `Position.counts_after`, `Position.not_counts_of_line` : the count is exact for texts that are not
  too long, and for a line that is too long it is not.
* `Position.advanceAll_ne` : advancing over text moves a position.
* `Position.advanceAll_of_line` : a long line leads back to the position before it.
-/

namespace Lexing.Position

/-- The position after a text called `name` has been read, counted afresh. -/
def after (name : String) (text : List Char) : Position :=
  { start name with
    line := .ofNat (1 + text.count '\n')
    column := .ofNat (1 + (text.reverse.takeWhile (· ≠ '\n')).length) }

/-- The numbers of the position are those of the text called `name` that comes before it: one more
than the line feeds, and one more than the code points since the last of them. -/
structure Counts (name : String) (text : List Char) (p : Position) : Prop where
  name : p.name = (start name).name
  line : p.line.toNat = 1 + text.count '\n'
  column : p.column.toNat = 1 + (text.reverse.takeWhile (· ≠ '\n')).length

theorem advanceAll_append (p : Position) (cs ds : List Char) :
    p.advanceAll (cs ++ ds) = (p.advanceAll cs).advanceAll ds :=
  List.foldl_append ..

theorem advance_after (name : String) (text : List Char) (c : Char) :
    (after name text).advance c = after name (text ++ [c]) := by
  by_cases hc : c = '\n'
  · subst hc
    simp [after, advance, ← Nat.add_assoc, UInt32.ofNat_add]
  · simp [after, advance, hc, ← Nat.add_assoc, UInt32.ofNat_add]

/-- Advancing from the beginning of a text leads to the position after it. -/
theorem advanceAll_start (name : String) (text : List Char) :
    (start name).advanceAll text = after name text := by
  induction text using List.reverseRecOn with
  | nil => rfl
  | append_singleton text c ih =>
    rw [advanceAll_append, ih]
    exact advance_after name text c

theorem advanceAll_after (name : String) (text more : List Char) :
    (after name text).advanceAll more = after name (text ++ more) := by
  rw [← advanceAll_start, ← advanceAll_append, advanceAll_start]

/-- The count is exact for a text that is shorter than the greatest number. -/
theorem counts_after (name : String) {text : List Char} (h : text.length + 1 < UInt32.size) :
    Counts name text (after name text) := by
  have hline : text.count '\n' ≤ text.length := List.count_le_length
  have hcolumn : (text.reverse.takeWhile (· ≠ '\n')).length ≤ text.length := by
    simpa using (text.reverse.takeWhile_sublist (· ≠ '\n')).length_le
  exact ⟨rfl, UInt32.toNat_ofNat_of_lt' (by omega), UInt32.toNat_ofNat_of_lt' (by omega)⟩

/-- No position counts a line that is as long as the range of the numbers. -/
theorem not_counts_of_line {name : String} {text : List Char} (h : '\n' ∉ text)
    (hlong : UInt32.size ≤ text.length) (p : Position) : ¬Counts name text p := by
  intro hp
  have hline : text.reverse.takeWhile (· ≠ '\n') = text.reverse := by
    refine List.takeWhile_eq_self_iff.mpr fun c hc => decide_eq_true ?_
    rintro rfl
    exact h (List.mem_reverse.mp hc)
  have hcolumn := hp.column
  rw [hline, List.length_reverse] at hcolumn
  have hlt := p.column.toNat_lt_size
  omega

/-! ### Moving on -/

theorem name_advanceAll (p : Position) (cs : List Char) : (p.advanceAll cs).name = p.name := by
  induction cs generalizing p with
  | nil => rfl
  | cons c cs ih =>
    refine (ih (p.advance c)).trans ?_
    rw [advance]
    split <;> rfl

theorem line_advanceAll (p : Position) (cs : List Char) :
    (p.advanceAll cs).line = p.line + .ofNat (cs.count '\n') := by
  induction cs generalizing p with
  | nil => simp [advanceAll]
  | cons c cs ih =>
    have hstep : p.advanceAll (c :: cs) = (p.advance c).advanceAll cs := rfl
    rw [hstep, ih]
    by_cases hc : c = '\n'
    · simp [advance, hc, UInt32.ofNat_add, UInt32.add_assoc, UInt32.add_comm]
    · simp [advance, hc]

theorem column_advanceAll {p : Position} {cs : List Char} (h : '\n' ∉ cs) :
    (p.advanceAll cs).column = p.column + .ofNat cs.length := by
  induction cs generalizing p with
  | nil => simp [advanceAll]
  | cons c cs ih =>
    obtain ⟨hc, hcs⟩ := not_or.mp (mt List.mem_cons.mpr h)
    have hstep : p.advanceAll (c :: cs) = (p.advance c).advanceAll cs := rfl
    rw [hstep, ih hcs]
    simp [advance, Ne.symm hc, UInt32.ofNat_add, UInt32.add_assoc, UInt32.add_comm]

/-- A number changes if less than the whole range is added to it. -/
theorem add_ofNat_ne {k : UInt32} {n : Nat} (hn : 0 < n) (h : n < UInt32.size) :
    k + .ofNat n ≠ k := by
  intro heq
  have hzero : UInt32.ofNat n = 0 := by simpa using heq
  have hnat := congrArg UInt32.toNat hzero
  rw [UInt32.toNat_ofNat_of_lt' h, UInt32.toNat_zero] at hnat
  omega

/-- Advancing over text moves a position, if the text is shorter than the range of its numbers. -/
theorem advanceAll_ne (p : Position) {cs : List Char} (h : cs ≠ [])
    (hshort : cs.length < UInt32.size) : p.advanceAll cs ≠ p := by
  intro heq
  by_cases hn : '\n' ∈ cs
  · have hline := line_advanceAll p cs
    rw [heq] at hline
    have hcount : cs.count '\n' ≤ cs.length := List.count_le_length
    exact add_ofNat_ne (List.count_pos_iff.mpr hn) (by omega) hline.symm
  · have hcolumn := column_advanceAll (p := p) hn
    rw [heq] at hcolumn
    exact add_ofNat_ne (List.length_pos_iff.mpr h) hshort hcolumn.symm

/-- A line that is as long as the range of the numbers leads back to where it began. -/
theorem advanceAll_of_line (p : Position) {cs : List Char} (h : '\n' ∉ cs)
    (hlength : cs.length = UInt32.size) : p.advanceAll cs = p := by
  have hline : (p.advanceAll cs).line = p.line := by
    rw [line_advanceAll, List.count_eq_zero.mpr h]
    exact UInt32.add_zero _
  have hcolumn : (p.advanceAll cs).column = p.column := by
    rw [column_advanceAll h, hlength]
    exact UInt32.add_zero _
  have hname : (p.advanceAll cs).name = p.name := name_advanceAll p cs
  generalize p.advanceAll cs = q at hline hcolumn hname
  cases p
  cases q
  simp_all

end Lexing.Position
