import Lexing.Proofs.Rule.BuiltIn
import Lexing.Proofs.Scanner.Evolution

/-!
# Built-in rules take steps and rewind

A built-in rule does nothing to a scanner but to take steps that assemble a token and to rewind,
whether it matches or not. What all steps and rewinding preserve is therefore preserved by every
built-in rule.

## Main definitions

* `Outcome.Evolves` : steps and rewinding lead to the outcome, unless there was a fault.

## Main results

* `Numeral.evolves_scan`, `Quotation.evolves_scan` : rules that are made of other rules.
* `Rule.Gives.evolves_eval` : all built-in rules.
-/

namespace Lexing

open Scanner

variable {labels : String → Prop} {flags : Flags} {s t : Scanner}

/-- If the outcome is no fault, steps and rewinding lead to it. -/
def Outcome.Evolves (labels : String → Prop) (s : Scanner) (o : Outcome) : Prop :=
  ∀ matched t, o = .ok (matched, t) → s.Evolves labels t

theorem Outcome.evolves_settle {attempt : Option Scanner}
    (h : ∀ t, attempt = some t → ∃ w, Assembles labels s w t) :
    Outcome.Evolves labels s (settle s attempt) := by
  rintro matched t ht
  rcases attempt with _ | u
  · obtain ⟨-, rfl⟩ := Prod.mk.inj (Except.ok.inj ht)
    exact .refl
  · obtain ⟨-, rfl⟩ := Prod.mk.inj (Except.ok.inj ht)
    obtain ⟨w, hw⟩ := h u rfl
    exact hw.evolves

/-! ### Numbers -/

/-- Numbers evolve if their leads and suffixes do. -/
theorem Numeral.evolves_scan {f : Numeral} {lead suffix : Scanner → Outcome}
    (hf : f.Labels labels) (hlead : ∀ s, Outcome.Evolves labels s (lead s))
    (hsuffix : ∀ s, Outcome.Evolves labels s (suffix s)) (s : Scanner) :
    Outcome.Evolves labels s (f.scan lead suffix s) := by
  rintro matched t h
  obtain ⟨v, hsign⟩ := f.assembles_takeSign labels s
  have hcore (u : Scanner) : u.Evolves labels (f.core u).2 := by
    obtain ⟨w, hw, -⟩ := reads_core hf u
    exact hw.evolves
  rcases scan_cases h with ⟨u, hu, -, rfl⟩ | ⟨u, hu, -, -, rfl⟩ | ⟨u, found, hu, -, -, ht⟩
  · exact (hsign.evolves.trans (hlead _ _ _ hu)).rewind
  · exact ((hsign.evolves.trans (hlead _ _ _ hu)).trans (hcore u)).rewind
  · have hkind : Assembles labels (f.core u).2 [] ((f.core u).2.setKind? f.kind) :=
      Assembles.refl.setKind? hf.2.2
    have hled := (hsign.evolves.trans (hlead _ _ _ hu)).trans (hcore u)
    exact (hled.assembles hkind).trans (hsuffix _ _ _ ht)

/-! ### Quoted texts -/

namespace Quotation

variable {q : Quotation} {escapes : Scanner → Outcome}

theorem relatesSteps_evolves (hescapes : ∀ s, Outcome.Evolves labels s (escapes s)) :
    q.RelatesSteps escapes (Scanner.Evolves labels) where
  trans := Evolves.trans
  keep := .move (.inl rfl)
  skip := .move (.inr rfl)
  reject _ := Evolves.refl.reject
  recover hm s := by
    obtain ⟨w, hw⟩ := q.assembles_recover labels hm s
    exact hw.evolves
  escapes := hescapes

/-- Quoted texts evolve if their escapes do. -/
theorem evolves_scan (hkind : labels q.kind)
    (hescapes : ∀ s, Outcome.Evolves labels s (escapes s)) (s : Scanner) :
    Outcome.Evolves labels s (q.scan escapes s) := by
  rintro matched t h
  rcases scan_cases h with ⟨-, rfl⟩ | ⟨-, -, bound, hbody⟩
  · exact .refl
  · have hopening : s.Evolves labels (s.skip.setKind q.kind) :=
      (Evolves.move (.inr rfl) s).setKind hkind
    exact hopening.trans ((relatesSteps_evolves hescapes).body hbody)

end Quotation

/-! ### All rules -/

namespace Rule

variable {r : Rule} {rules : List Rule}

theorem evolves_evalFirst (h : ∀ r ∈ rules, ∀ s, Outcome.Evolves labels s (r.eval flags s))
    (s : Scanner) : Outcome.Evolves labels s (evalFirst flags rules s) := by
  induction rules generalizing s with
  | nil =>
    rintro matched t ht
    obtain ⟨-, rfl⟩ := Prod.mk.inj (Except.ok.inj ht)
    exact .refl
  | cons r rs ih =>
    rintro matched t ht
    have hr := h r List.mem_cons_self s
    rcases evalFirst_cases ht with ⟨he, -⟩ | ⟨u, hu, hrest⟩
    · exact hr _ _ he
    · exact (hr _ _ hu).trans (ih (fun r hr => h r (List.mem_cons_of_mem _ hr)) u _ _ hrest)

theorem evolves_evalLead {lead : Option Rule}
    (h : ∀ r ∈ lead, ∀ s, Outcome.Evolves labels s (r.eval flags s)) (s : Scanner) :
    Outcome.Evolves labels s (evalLead flags lead s) := by
  rcases lead with _ | r
  · rintro matched t ht
    obtain ⟨-, rfl⟩ := Prod.mk.inj (Except.ok.inj ht)
    exact .refl
  · exact h r rfl s

/-- Built-in rules take steps and rewind. -/
theorem Gives.evolves_eval (h : r.Gives labels) (flags : Flags) (s : Scanner) :
    Outcome.Evolves labels s (r.eval flags s) := by
  induction h generalizing s with
  | @span r h =>
    refine Outcome.evolves_settle fun t ht => ?_
    obtain ⟨w, -, hw⟩ := r.assembles_attempt ht
    exact ⟨w, hw.mono h⟩
  | @name r h =>
    refine Outcome.evolves_settle fun t ht => ?_
    obtain ⟨w, -, hw⟩ := r.assembles_attempt ht
    exact ⟨w, hw.mono fun kind hk => hk ▸ h⟩
  | literal h =>
    refine Outcome.evolves_settle fun t ht => ?_
    obtain ⟨w, -, hw, -⟩ := LiteralRule.attempt_eq_some ht
    exact ⟨w, hw.mono h⟩
  | number h _ _ hlead hsuffixes =>
    exact Numeral.evolves_scan h (evolves_evalLead hlead) (evolves_evalFirst hsuffixes) s
  | quotation h _ hescapes => exact Quotation.evolves_scan h (evolves_evalFirst hescapes) s
  | @comment r hopening h =>
    refine Outcome.evolves_settle fun t ht => ?_
    obtain ⟨w, -, hw⟩ := r.assembles_attempt ht
    refine ⟨w, hw.mono fun kind hk => ?_⟩
    rcases hk with hk | rfl
    · exact hopening kind hk
    · exact h
  | charEscape e => exact Outcome.evolves_settle fun t => e.assembles_attempt
  | hexEscape e => exact Outcome.evolves_settle fun t => e.assembles_attempt
  | octalEscape e => exact Outcome.evolves_settle fun t => e.assembles_attempt
  | group _ ih => exact evolves_evalFirst ih s

end Rule

end Lexing
