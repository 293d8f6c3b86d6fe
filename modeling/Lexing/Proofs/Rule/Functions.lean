import Lexing.Proofs.Rule.Appearance

/-!
# Functions of the user within rules

A rule may be made of other rules, and some of these may be functions of the user. Such a rule does
the same to scanners that are related by a congruence, provided that the functions within it do.

## Main definitions

* `Rule.functions` : the functions of the user within a rule.

## Main results

* `Rule.related_eval` : rules do the same to related scanners if their functions do.
-/

namespace Lexing.Rule

open Scanner

mutual

/-- The functions of the user within a rule. -/
def functions : Rule → List (Flags → Scanner → Outcome)
  | number _ lead suffixes => functionsOfLead lead ++ functionsOfAll suffixes
  | quotation _ escapes => functionsOfAll escapes
  | group rules => functionsOfAll rules
  | custom run => [run]
  | _ => []

/-- The functions of the user within several rules. -/
def functionsOfAll : List Rule → List (Flags → Scanner → Outcome)
  | [] => []
  | r :: rs => functions r ++ functionsOfAll rs

/-- The functions of the user within the lead of a number. -/
def functionsOfLead : Option Rule → List (Flags → Scanner → Outcome)
  | none => []
  | some r => functions r

end

variable {R : Scanner → Scanner → Prop} {flags : Flags}

mutual

/-- Rules do the same to scanners that are related by a congruence if the functions of the user
within them do. -/
theorem related_eval (hR : IsCongruence R) (r : Rule) (h : ∀ run ∈ r.functions, ∀ s t, R s t →
    Outcome.Related R (run flags s) (run flags t)) (s t : Scanner) (hst : R s t) :
    Outcome.Related R (r.eval flags s) (r.eval flags t) := by
  match r, h with
  | .span r, _ => exact Outcome.related_settle hst (r.related_attempt hR hst)
  | .name r, _ => exact Outcome.related_settle hst (r.related_attempt hR hst)
  | .literal r, _ => exact Outcome.related_settle hst (r.related_attempt hR hst)
  | .number f lead suffixes, h =>
    rw [functions, List.forall_mem_append] at h
    exact f.related_scan hR (related_evalLead hR lead h.1) (related_evalFirst hR suffixes h.2) hst
  | .quotation q escapes, h => exact q.related_scan hR (related_evalFirst hR escapes h) hst
  | .comment r, _ => exact Outcome.related_settle hst (r.related_attempt hR flags hst)
  | .charEscape e, _ => exact Outcome.related_settle hst (e.related_attempt hR hst)
  | .hexEscape e, _ => exact Outcome.related_settle hst (e.related_attempt hR hst)
  | .octalEscape e, _ => exact Outcome.related_settle hst (e.related_attempt hR hst)
  | .group rules, h => exact related_evalFirst hR rules h s t hst
  | .custom run, h => exact h run List.mem_cons_self s t hst

theorem related_evalFirst (hR : IsCongruence R) (rules : List Rule)
    (h : ∀ run ∈ functionsOfAll rules, ∀ s t, R s t →
      Outcome.Related R (run flags s) (run flags t)) (s t : Scanner) (hst : R s t) :
    Outcome.Related R (evalFirst flags rules s) (evalFirst flags rules t) := by
  match rules, h with
  | [], _ => exact .ok ⟨rfl, hst⟩
  | r :: rs, h =>
    rw [functionsOfAll, List.forall_mem_append] at h
    refine (related_eval hR r h.1 s t hst).bind ?_
    rintro ⟨_, u⟩ ⟨found, v⟩ ⟨rfl, huv⟩
    cases found with
    | true => exact .ok ⟨rfl, huv⟩
    | false => exact related_evalFirst hR rs h.2 u v huv

theorem related_evalLead (hR : IsCongruence R) (lead : Option Rule)
    (h : ∀ run ∈ functionsOfLead lead, ∀ s t, R s t →
      Outcome.Related R (run flags s) (run flags t)) (s t : Scanner) (hst : R s t) :
    Outcome.Related R (evalLead flags lead s) (evalLead flags lead t) := by
  match lead, h with
  | none, _ => exact .ok ⟨rfl, hst⟩
  | some r, h => exact related_eval hR r h s t hst

end

end Lexing.Rule
