import Lexing.Proofs.Scanner.Assembly
import Lexing.Rule.Outcome

/-!
# Outcomes without faults

Two properties of outcomes say that a rule does what rules should do. Within a token, a steady
outcome is a match made of steps, or the scanner as it was. At the beginning of a token, a sound
outcome is a match that has consumed text, or a scanner that shows the same as before: a rule that
has moved on has to give everything back.

## Main definitions

* `Outcome.Steady` : outcomes within a token.
* `Outcome.Sound` : outcomes at the beginning of a token.
-/

namespace Lexing

open Scanner

namespace Outcome

/-- The rule matched by steps that give kinds among `labels`, or it left the scanner as it was. -/
inductive Steady (labels : String → Prop) (s : Scanner) : Outcome → Prop
  | matched {w t} (h : Assembles labels s w t) : Steady labels s (.ok (true, t))
  | missed : Steady labels s (.ok (false, s))

/-- The rule consumed a text that satisfies `Q` together with the scanner after it, or it gave
everything back. -/
inductive Sound (Q : List Char → Scanner → Prop) (s : Scanner) : Outcome → Prop
  | matched {w t} (hw : w ≠ []) (h : s.Consumes w t) (hQ : Q w t) : Sound Q s (.ok (true, t))
  | missed {t} (h : s.Restores t) : Sound Q s (.ok (false, t))

variable {labels : String → Prop} {Q Q' : List Char → Scanner → Prop} {s : Scanner}
  {attempt : Option Scanner}

/-- An attempt is steady if its matches are made of steps. -/
theorem steady_settle (h : ∀ t, attempt = some t → ∃ w, Assembles labels s w t) :
    Steady labels s (settle s attempt) := by
  cases ha : attempt with
  | none => exact .missed
  | some t =>
    obtain ⟨w, hw⟩ := h t ha
    exact .matched hw

/-- Whether or not a steady rule matches, steps lead to the scanner after it. -/
theorem Steady.exists_assembles {o : Outcome} (h : Steady labels s o) :
    ∃ matched w t, o = .ok (matched, t) ∧ Assembles labels s w t := by
  cases h with
  | matched h => exact ⟨true, _, _, rfl, h⟩
  | missed => exact ⟨false, [], s, rfl, .refl⟩

/-- An attempt is sound if its matches consume text. -/
theorem sound_settle (h : ∀ t, attempt = some t → ∃ w, w ≠ [] ∧ s.Consumes w t ∧ Q w t) :
    Sound Q s (settle s attempt) := by
  cases ha : attempt with
  | none => exact .missed (.refl s)
  | some t =>
    obtain ⟨w, hne, hw, hQ⟩ := h t ha
    exact .matched hne hw hQ

/-- A rule that is tried after another one gave everything back is sound from where the scanner was.
-/
theorem Sound.of_restores {t : Scanner} {o : Outcome} (h : s.Restores t) (ho : Sound Q t o) :
    Sound Q s o := by
  cases ho with
  | matched hw ht hQ => exact .matched hw (h.consumes ht) hQ
  | missed ht => exact .missed (h.trans ht)

theorem Sound.mono {o : Outcome} (h : Sound Q s o) (hQ : ∀ w t, s.Consumes w t → Q w t → Q' w t) :
    Sound Q' s o := by
  cases h with
  | matched hw h hq => exact .matched hw h (hQ _ _ h hq)
  | missed h => exact .missed h

end Outcome

end Lexing
