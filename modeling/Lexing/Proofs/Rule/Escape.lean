import Lexing.Proofs.Scanner.Assembly
import Lexing.Rule.Escape

/-!
# What rules for escapes match

Escapes are decoded within the draft and give no kind. An escape by octal digits may match without
consuming anything, where it reports that the digits denote nothing.

## Main results

* `CharEscape.assembles_attempt`, `HexEscape.assembles_attempt`, `OctalEscape.assembles_attempt`.
-/

namespace Lexing

open Scanner

variable {labels : String → Prop} {s t : Scanner}

/-- What a code point stands for is said in the table. -/
theorem CharEscape.mem_table_of_lookup? {e : CharEscape} {sign c : Char}
    (h : e.lookup? sign = some c) : ⟨sign, c⟩ ∈ e.table := by
  obtain ⟨code, hcode, rfl⟩ := Option.map_eq_some_iff.mp h
  obtain ⟨hsign, -⟩ := List.find?_eq_some_iff_append.mp hcode
  rw [← beq_iff_eq.mp hsign]
  exact List.mem_reverse.mp (List.mem_of_find?_eq_some hcode)

theorem CharEscape.assembles_attempt {e : CharEscape} (h : e.attempt s = some t) :
    ∃ w, Assembles labels s w t := by
  obtain ⟨c, -, rfl⟩ := Option.map_eq_some_iff.mp h
  exact ⟨_, (Assembles.refl.pushChar c).skip⟩

theorem HexEscape.assembles_decodeDigits (e : HexEscape) (s : Scanner) :
    ∃ w, Assembles labels s w (e.decodeDigits s) := by
  have hdigits : Assembles labels s _ (s.times e.width .skip) := assembles_times (.inr rfl) ..
  unfold decodeDigits
  dsimp only
  split
  · exact ⟨_, Assembles.refl.reject _⟩
  · split
    · exact ⟨_, hdigits.pushByte _⟩
    · split
      · exact ⟨_, hdigits.pushChar _⟩
      · exact ⟨_, Assembles.refl.reject _⟩

theorem HexEscape.assembles_attempt {e : HexEscape} (h : e.attempt s = some t) :
    ∃ w, Assembles labels s w t := by
  unfold HexEscape.attempt at h
  split at h <;> cases h
  have hdigits : ∃ w, Assembles labels s.skip w (e.decodeDigits s.skip) :=
    e.assembles_decodeDigits s.skip
  obtain ⟨w, hdigits⟩ := hdigits
  exact ⟨_, Assembles.refl.skip.trans hdigits⟩

theorem OctalEscape.assembles_attempt {e : OctalEscape} (h : e.attempt s = some t) :
    ∃ w, Assembles labels s w t := by
  have hdigits : Assembles labels s _ (s.times 3 .skip) := assembles_times (.inr rfl) ..
  unfold OctalEscape.attempt at h
  split at h
  · cases h
  · dsimp only at h
    split at h
    · cases h
      exact ⟨_, Assembles.refl.reject _⟩
    · split at h <;> cases h
      · exact ⟨_, hdigits.pushByte _⟩
      · exact ⟨_, hdigits.pushChar _⟩

end Lexing
