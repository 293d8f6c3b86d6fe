import Lexing.Proofs.Scanner.Assembly

/-!
# Text that stands for other text

`Scanner.Decodes s w v t` says that the scanner moved from `s` to `t` over the text `w` within one
draft and that `w` stands for `v`: the bytes of `v` were added to the value, and nothing was
reported. It composes, so that a text whose parts have a known meaning has the meaning of its parts
one after another.

## Main definitions

* `Scanner.Decodes` : a text was consumed and stands for another one.

## Main results

* `Scanner.decodes_keep`, `Scanner.decodes_skip`, `Scanner.decodes_times_skip` : moves.
* `Scanner.Decodes.trans` : texts one after another.
-/

namespace Lexing.Scanner

/-- The text `w` was consumed within the draft and stands for `v`. -/
structure Decodes (s : Scanner) (w v : List Char) (t : Scanner) : Prop where
  consumes : s.Consumes w t
  value : t.draft.value = s.draft.value ++ Utf8.encode v
  kind : t.draft.kind = s.draft.kind
  diagnostics : t.draft.diagnostics = s.draft.diagnostics

variable {s t u : Scanner} {w w' v v' : List Char} {c : Char}

namespace Decodes

theorem refl (s : Scanner) : s.Decodes [] [] s :=
  ⟨.refl s, by simp [Utf8.encode], rfl, rfl⟩

theorem trans (h₁ : s.Decodes w v t) (h₂ : t.Decodes w' v' u) :
    s.Decodes (w ++ w') (v ++ v') u where
  consumes := h₁.consumes.trans h₂.consumes
  value := by rw [h₂.value, h₁.value, Utf8.encode, Utf8.encode, Utf8.encode, List.flatMap_append,
    List.append_assoc]
  kind := h₂.kind.trans h₁.kind
  diagnostics := h₂.diagnostics.trans h₁.diagnostics

/-- What comes after the text that was consumed. -/
theorem upcoming_eq {rest : List Char} (h : s.Decodes w v t)
    (hup : s.upcoming.chars = w ++ rest) : t.upcoming.chars = rest := by
  rw [h.consumes.upcoming] at hup
  exact List.append_cancel_left hup

end Decodes

theorem current?_of_upcoming {cs : List Char} (h : s.upcoming.chars = c :: cs) :
    s.current? = some c := by
  rw [current?_eq, h, List.head?_cons]

/-- A code point that is kept stands for itself. -/
theorem decodes_keep (hc : s.current? = some c) : s.Decodes [c] [c] s.keep where
  consumes := by simpa [hc] using s.consumes_keep
  value := by rw [value_keep, hc, Option.toList_some]
  kind := kind_apply (.inl rfl) s
  diagnostics := s.diagnostics_keep

/-- A code point that is skipped stands for nothing. -/
theorem decodes_skip (hc : s.current? = some c) : s.Decodes [c] [] s.skip where
  consumes := by simpa [hc] using s.consumes_skip
  value := by simp [value_skip, Utf8.encode]
  kind := kind_apply (.inr rfl) s
  diagnostics := s.diagnostics_skip

theorem decodes_pushChar (s : Scanner) (c : Char) : s.Decodes [] [c] (s.pushChar c) :=
  ⟨(Consumes.refl s).pushChar c, by simp [pushChar, Utf8.encode], rfl, rfl⟩

theorem decodes_times_skip (hup : s.upcoming.chars = w ++ w') :
    s.Decodes w [] (s.times w.length .skip) := by
  induction w generalizing s with
  | nil => exact .refl s
  | cons c w ih =>
    have hc : s.current? = some c := current?_of_upcoming hup
    have hskip := decodes_skip hc
    exact hskip.trans (ih (hskip.upcoming_eq hup))

end Lexing.Scanner
