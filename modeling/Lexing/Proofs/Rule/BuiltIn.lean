import Lexing.Proofs.Rule.Basic
import Lexing.Proofs.Rule.Functions
import Lexing.Proofs.Rule.Revision

/-!
# Rules without functions of the user

The kinds of rules can be nested: numbers have rules as leads and suffixes, quoted texts have rules
for escapes, and groups are made of rules. A rule that is made of these kinds alone, to any depth,
is built in. Wherever it is tried, it revises the draft, and it does the same to scanners that are
related by a congruence.

Of the built-in rules only numbers consume text before they turn out not to match. They rewind, so
that a miss takes the scanner to the beginning of the draft. All other rules leave the scanner as it
is.

## Main definitions

* `Rule.Gives`, `Rule.IsBuiltIn` : built-in rules and the kinds that they give.
* `Rule.triesNumber` : the rule is a number, or a group with such a rule.

## Main results

* `Rule.Gives.revises_eval` : built-in rules revise the draft.
* `Rule.Gives.restores_of_miss` : what a rule that does not match does.
* `Rule.Gives.related_eval`, `Rule.Gives.alike_eval` : built-in rules see only what a scanner shows.
-/

namespace Lexing

open Scanner

variable {labels : String → Prop} {flags : Flags} {r : Rule} {rules : List Rule}
  {s t u : Scanner} {matched : Bool}

namespace Rule

/-! ### Nested rules -/

/-- The rule is made of the built-in kinds, to any depth, and the kinds of tokens that it is told to
give are among `labels`. -/
inductive Gives (labels : String → Prop) : Rule → Prop
  | span {r : SpanRule} (h : ∀ kind ∈ r.kind, labels kind) : Gives labels (.span r)
  | name {r : NameRule} (h : labels r.kind) : Gives labels (.name r)
  | literal {r : LiteralRule} (h : ∀ kind ∈ r.kind, labels kind) : Gives labels (.literal r)
  | number {f : Numeral} {lead : Option Rule} {suffixes : List Rule} (h : f.Labels labels)
      (hlead : ∀ r ∈ lead, Gives labels r) (hsuffixes : ∀ r ∈ suffixes, Gives labels r) :
      Gives labels (.number f lead suffixes)
  | quotation {q : Quotation} {escapes : List Rule} (h : labels q.kind)
      (hescapes : ∀ r ∈ escapes, Gives labels r) : Gives labels (.quotation q escapes)
  | comment {r : CommentRule} (hopening : ∀ kind ∈ r.opening.kind, labels kind)
      (h : labels r.kind) : Gives labels (.comment r)
  | charEscape (e : CharEscape) : Gives labels (.charEscape e)
  | hexEscape (e : HexEscape) : Gives labels (.hexEscape e)
  | octalEscape (e : OctalEscape) : Gives labels (.octalEscape e)
  | group {rules : List Rule} (h : ∀ r ∈ rules, Gives labels r) : Gives labels (.group rules)

/-- The rule is made of the built-in kinds, to any depth. -/
def IsBuiltIn (r : Rule) : Prop :=
  r.Gives fun _ => True

theorem evalFirst_cases {rs : List Rule} (h : evalFirst flags (r :: rs) s = .ok (matched, t)) :
    r.eval flags s = .ok (true, t) ∧ matched = true ∨
      ∃ u, r.eval flags s = .ok (false, u) ∧ evalFirst flags rs u = .ok (matched, t) := by
  obtain ⟨⟨found, u⟩, he, h⟩ := exists_of_bind_eq_ok h
  cases found with
  | true =>
    obtain ⟨rfl, rfl⟩ := Prod.mk.inj (Except.ok.inj h)
    exact .inl ⟨he, rfl⟩
  | false => exact .inr ⟨u, he, h⟩

theorem revises_evalFirst (h : ∀ r ∈ rules, ∀ s, Outcome.Revises labels s (r.eval flags s))
    (s : Scanner) : Outcome.Revises labels s (evalFirst flags rules s) := by
  induction rules generalizing s with
  | nil =>
    intro matched t ht
    obtain ⟨-, rfl⟩ := Prod.mk.inj (Except.ok.inj ht)
    exact .refl s
  | cons r rs ih =>
    intro matched t ht
    have hr := h r List.mem_cons_self s
    rcases evalFirst_cases ht with ⟨he, -⟩ | ⟨u, hu, hrest⟩
    · exact hr _ _ he
    · exact (hr _ _ hu).trans (ih (fun r hr => h r (List.mem_cons_of_mem _ hr)) u _ _ hrest)

theorem revises_evalLead {lead : Option Rule}
    (h : ∀ r ∈ lead, ∀ s, Outcome.Revises labels s (r.eval flags s)) (s : Scanner) :
    Outcome.Revises labels s (evalLead flags lead s) := by
  rcases lead with _ | r
  · intro matched t ht
    obtain ⟨-, rfl⟩ := Prod.mk.inj (Except.ok.inj ht)
    exact .refl s
  · exact h r rfl s

/-- Built-in rules revise the draft, whether they match or not. -/
theorem Gives.revises_eval (h : r.Gives labels) (flags : Flags) (s : Scanner) :
    Outcome.Revises labels s (r.eval flags s) := by
  induction h generalizing s with
  | @span r h =>
    refine Outcome.revises_settle fun t ht => ?_
    obtain ⟨w, hne, hw⟩ := r.assembles_attempt ht
    exact (hw.mono h).revises_of_ne_nil hne
  | @name r h =>
    refine Outcome.revises_settle fun t ht => ?_
    obtain ⟨w, hne, hw⟩ := r.assembles_attempt ht
    exact (hw.mono fun kind hk => hk ▸ h).revises_of_ne_nil hne
  | literal h =>
    refine Outcome.revises_settle fun t ht => ?_
    obtain ⟨w, hword, hw, -⟩ := LiteralRule.attempt_eq_some ht
    exact (hw.mono h).revises_of_ne_nil (WordTree.ne_nil_of_contains hword)
  | number h _ _ hlead hsuffixes =>
    exact Numeral.revises_scan h (revises_evalLead hlead) (revises_evalFirst hsuffixes) s
  | quotation h _ hescapes => exact Quotation.revises_scan h (revises_evalFirst hescapes) s
  | @comment r hopening h =>
    refine Outcome.revises_settle fun t ht => ?_
    obtain ⟨w, hne, hw⟩ := r.assembles_attempt ht
    refine (hw.mono fun kind hk => ?_).revises_of_ne_nil hne
    rcases hk with hk | rfl
    · exact hopening kind hk
    · exact h
  | charEscape e => exact Outcome.revises_settle fun t => e.revises_attempt
  | hexEscape e => exact Outcome.revises_settle fun t => e.revises_attempt
  | octalEscape e => exact Outcome.revises_settle fun t => e.revises_attempt
  | group _ ih => exact revises_evalFirst ih s

/-! ### Rules that do not match -/

mutual

/-- The rule is a number, or a group with such a rule. -/
def triesNumber : Rule → Bool
  | number .. => true
  | group rules => anyTriesNumber rules
  | _ => false

/-- One of the rules is a number, or a group with such a rule. -/
def anyTriesNumber : List Rule → Bool
  | [] => false
  | r :: rs => triesNumber r || anyTriesNumber rs

end

theorem anyTriesNumber_eq_false :
    anyTriesNumber rules = false ↔ ∀ r ∈ rules, r.triesNumber = false := by
  induction rules with
  | nil => simp [anyTriesNumber]
  | cons r rs ih => simp [anyTriesNumber, ih]

/-- Rules that do not match one after another rewind if one of them does. -/
theorem restores_evalFirst (h : ∀ r ∈ rules, ∀ s t, r.eval flags s = .ok (false, t) →
    (s.rewindIf r.triesNumber).Restores t) (ht : evalFirst flags rules s = .ok (false, t)) :
    (s.rewindIf (anyTriesNumber rules)).Restores t := by
  induction rules generalizing s with
  | nil =>
    obtain ⟨-, rfl⟩ := Prod.mk.inj (Except.ok.inj ht)
    exact .refl s
  | cons r rs ih =>
    rcases evalFirst_cases ht with ⟨-, hm⟩ | ⟨u, hu, hrest⟩
    · exact absurd hm Bool.false_ne_true
    · have hr := h r List.mem_cons_self s u hu
      exact hr.trans_rewindIf (ih (fun r hr => h r (List.mem_cons_of_mem _ hr)) hrest)

theorem restores_of_settle {attempt : Option Scanner}
    (h : Outcome.settle s attempt = .ok (false, t)) : s.Restores t := by
  rcases attempt with _ | u
  · obtain ⟨-, rfl⟩ := Prod.mk.inj (Except.ok.inj h)
    exact .refl s
  · exact absurd (Prod.mk.inj (Except.ok.inj h)).1.symm Bool.false_ne_true

/-- A built-in rule that does not match leaves the scanner as it is, unless it tries a number. Then
it takes the scanner to the beginning of the draft. -/
theorem Gives.restores_of_miss (h : r.Gives labels) (ht : r.eval flags s = .ok (false, t)) :
    (s.rewindIf r.triesNumber).Restores t := by
  induction h generalizing s t with
  | span | name | literal | comment | charEscape | hexEscape | octalEscape =>
    exact restores_of_settle ht
  | number h hlead =>
    exact Numeral.restores_of_miss h (revises_evalLead fun r hr => (hlead r hr).revises_eval flags)
      ht
  | quotation =>
    rcases Quotation.scan_cases ht with ⟨-, rfl⟩ | ⟨hm, -⟩
    · exact .refl t
    · exact absurd hm Bool.false_ne_true
  | group _ ih => exact restores_evalFirst (fun r hr s t => ih r hr) ht

/-! ### Related scanners -/

theorem functionsOfAll_eq_nil (h : ∀ r ∈ rules, r.functions = []) : functionsOfAll rules = [] := by
  induction rules with
  | nil => rfl
  | cons r rs ih =>
    rw [functionsOfAll, h r List.mem_cons_self, ih fun r hr => h r (List.mem_cons_of_mem _ hr)]
    rfl

/-- There are no functions of the user within a built-in rule. -/
theorem Gives.functions_eq_nil (h : r.Gives labels) : r.functions = [] := by
  induction h with
  | span | name | literal | comment | charEscape | hexEscape | octalEscape => rfl
  | @number _ lead _ _ _ _ hlead hsuffixes =>
    rw [functions, functionsOfAll_eq_nil hsuffixes, List.append_nil]
    cases lead with
    | none => rfl
    | some r => exact hlead r rfl
  | quotation _ _ hescapes => exact functionsOfAll_eq_nil hescapes
  | group _ ih => exact functionsOfAll_eq_nil ih

/-- Built-in rules do the same to scanners that are related by a congruence. -/
theorem Gives.related_eval {R : Scanner → Scanner → Prop} (hR : IsCongruence R)
    (h : r.Gives labels) (flags : Flags) (hst : R s t) :
    Outcome.Related R (r.eval flags s) (r.eval flags t) := by
  refine Rule.related_eval hR r (fun run hrun => ?_) s t hst
  rw [h.functions_eq_nil] at hrun
  exact absurd hrun List.not_mem_nil

/-- Built-in rules do the same to scanners that look alike. -/
theorem Gives.alike_eval (h : r.Gives labels) (flags : Flags) (hst : s.Alike t) :
    Outcome.Alike (r.eval flags s) (r.eval flags t) :=
  h.related_eval isCongruence_alike flags hst

end Rule

end Lexing
