import Lexing.Proofs.Rule.Comment
import Lexing.Proofs.Rule.Escape
import Lexing.Proofs.Rule.Numeral
import Lexing.Proofs.Rule.Quotation
import Lexing.Rule.Basic

/-!
# What rules do

A rule is steady if it can be tried within a token, and sound if it can be tried at the beginning of
one. Literals and escapes are steady. Every rule that is made of such parts and of no function of
the user is sound, and so are groups of sound rules.

## Main definitions

* `Rule.IsSteady`, `Rule.IsSound` : the outcomes of a rule from every scanner.
* `Rule.IsPlain` : rules without functions of the user, whose parts are literals and escapes.

## Main results

* `Rule.sound_evalFirst` : the first rule that matches is sound if all rules are.
* `Rule.IsPlain.isSound` : plain rules are sound.
-/

namespace Lexing.Rule

open Scanner Outcome

variable {flags : Flags} {labels : String → Prop} {Q Q' : List Char → Scanner → Prop} {s : Scanner}

/-- Within a token, the rule matches by steps or leaves the scanner as it is. -/
def IsSteady (flags : Flags) (labels : String → Prop) (r : Rule) : Prop :=
  ∀ s, Steady labels s (r.eval flags s)

/-- At the beginning of a token, the rule consumes a text that satisfies `Q` or gives everything
back. -/
def IsSound (flags : Flags) (Q : List Char → Scanner → Prop) (r : Rule) : Prop :=
  ∀ s, s.IsFresh → Sound (Q) s (r.eval flags s)

/-! ### Trying a rule

Each kind of rule is tried in its own way. -/

theorem eval_span (r : SpanRule) : (span r).eval flags s = settle s (r.attempt s) := rfl

theorem eval_name (r : NameRule) : (name r).eval flags s = settle s (r.attempt s) := rfl

theorem eval_literal (r : LiteralRule) : (literal r).eval flags s = settle s (r.attempt s) := rfl

theorem eval_number (f : Numeral) (lead : Option Rule) (suffixes : List Rule) :
    (number f lead suffixes).eval flags s =
      f.scan (evalLead flags lead) (evalFirst flags suffixes) s := rfl

theorem eval_quotation (q : Quotation) (escapes : List Rule) :
    (quotation q escapes).eval flags s = q.scan (evalFirst flags escapes) s := rfl

theorem eval_comment (r : CommentRule) :
    (comment r).eval flags s = settle s (r.attempt flags s) := rfl

theorem eval_charEscape (e : CharEscape) :
    (charEscape e).eval flags s = settle s (e.attempt s) := rfl

theorem eval_hexEscape (e : HexEscape) :
    (hexEscape e).eval flags s = settle s (e.attempt s) := rfl

theorem eval_octalEscape (e : OctalEscape) :
    (octalEscape e).eval flags s = settle s (e.attempt s) := rfl

theorem eval_group (rules : List Rule) :
    (group rules).eval flags s = evalFirst flags rules s := rfl

theorem evalFirst_cons (r : Rule) (rs : List Rule) :
    evalFirst flags (r :: rs) s = r.eval flags s >>= fun (matched, t) =>
      if matched then pure (true, t) else evalFirst flags rs t := rfl

/-! ### Rules in order -/

theorem steady_evalFirst {rules : List Rule} (h : ∀ r ∈ rules, r.IsSteady flags labels)
    (s : Scanner) : Steady labels s (evalFirst flags rules s) := by
  induction rules with
  | nil => exact .missed
  | cons r rs ih =>
    have hr := h r List.mem_cons_self s
    rw [evalFirst_cons]
    generalize r.eval flags s = o at hr ⊢
    cases hr with
    | matched ht => exact .matched ht
    | missed => exact ih fun r hr => h r (List.mem_cons_of_mem _ hr)

theorem steady_evalLead {lead : Option Rule} (h : ∀ r ∈ lead, r.IsSteady flags labels)
    (s : Scanner) : Steady labels s (evalLead flags lead s) := by
  cases lead with
  | none => exact .matched .refl
  | some r => exact h r rfl s

/-- The first rule that matches is sound if all rules are. -/
theorem sound_evalFirst {rules : List Rule} (h : ∀ r ∈ rules, r.IsSound flags Q)
    (hs : s.IsFresh) : Sound Q s (evalFirst flags rules s) := by
  induction rules generalizing s with
  | nil => exact .missed (.refl s)
  | cons r rs ih =>
    have hr := h r List.mem_cons_self s hs
    rw [evalFirst_cons]
    generalize r.eval flags s = o at hr ⊢
    cases hr with
    | matched hw ht hQ => exact .matched hw ht hQ
    | missed ht =>
      exact .of_restores ht (ih (fun r hr => h r (List.mem_cons_of_mem _ hr)) (ht.isFresh hs))

/-! ### Parts of tokens -/

theorem isSteady_literal {r : LiteralRule} (h : ∀ kind ∈ r.kind, labels kind) :
    (literal r).IsSteady flags labels := by
  intro s
  rw [eval_literal]
  refine steady_settle fun t ht => ?_
  obtain ⟨w, -, hw, -⟩ := LiteralRule.attempt_eq_some ht
  exact ⟨w, hw.mono h⟩

theorem isSteady_charEscape (e : CharEscape) : (charEscape e).IsSteady flags labels := by
  intro s
  rw [eval_charEscape]
  exact steady_settle fun t => e.assembles_attempt

theorem isSteady_hexEscape (e : HexEscape) : (hexEscape e).IsSteady flags labels := by
  intro s
  rw [eval_hexEscape]
  exact steady_settle fun t => e.assembles_attempt

theorem isSteady_octalEscape (e : OctalEscape) : (octalEscape e).IsSteady flags labels := by
  intro s
  rw [eval_octalEscape]
  exact steady_settle fun t => e.assembles_attempt

/-! ### Tokens -/

theorem isSound_span (r : SpanRule) : (span r).IsSound flags fun _ _ => True := by
  intro s _
  rw [eval_span]
  refine sound_settle fun t ht => ?_
  obtain ⟨w, hne, hw⟩ := r.assembles_attempt ht
  exact ⟨w, hne, hw.consumes, trivial⟩

/-- A name has the kind of names or is a keyword. -/
theorem isSound_name (r : NameRule) : (name r).IsSound flags fun _ t =>
    t.draft.kind = r.kind ∨ t.draft.kind = "" ∧ t.valueText ∈ r.keywords := by
  intro s hs
  rw [eval_name]
  refine sound_settle fun t ht => ?_
  obtain ⟨w, hne, hw⟩ := r.assembles_attempt ht
  have hkind := r.kind_attempt ht
  rw [hs.1] at hkind
  exact ⟨w, hne, hw.consumes, hkind⟩

/-- A literal is a word of its rule, and the value unless it is skipped. -/
theorem isSound_literal (r : LiteralRule) : (literal r).IsSound flags fun w t =>
    r.words.contains w ∧ t.draft.value = (if r.skipped then [] else Utf8.encode w) ∧
      t.draft.kind = r.kind.getD "" := by
  intro s hs
  rw [eval_literal]
  refine sound_settle fun t ht => ?_
  obtain ⟨w, hword, hw, hvalue, hkind⟩ := LiteralRule.attempt_eq_some ht
  rw [hs.1] at hvalue hkind
  exact ⟨w, WordTree.ne_nil_of_contains hword, hw.consumes, hword, hvalue, hkind⟩

/-- A number has a kind among `labels`. -/
theorem isSound_number {f : Numeral} {lead : Option Rule} {suffixes : List Rule}
    (hf : f.Labels labels) (hlead : ∀ r ∈ lead, r.IsSteady flags labels)
    (hsuffixes : ∀ r ∈ suffixes, r.IsSteady flags labels) :
    (number f lead suffixes).IsSound flags fun _ t =>
      labels t.draft.kind ∨ t.draft.kind = Kind.illegal := by
  intro s hs
  rw [eval_number]
  exact Numeral.sound_scan hf (steady_evalLead hlead) (steady_evalFirst hsuffixes) hs

/-- A quoted text has its kind, unless it is illegal. -/
theorem isSound_quotation {q : Quotation} {escapes : List Rule} (hkind : labels q.kind)
    (hescapes : ∀ r ∈ escapes, r.IsSteady flags labels) :
    (quotation q escapes).IsSound flags fun _ t =>
      labels t.draft.kind ∨ t.draft.kind = Kind.illegal := by
  intro s _
  rw [eval_quotation]
  exact Quotation.sound_scan hkind (steady_evalFirst hescapes) s

/-- A quoted text begins with its opening delimiter. -/
theorem isSound_quotation_opening {q : Quotation} {escapes : List Rule}
    (hescapes : ∀ r ∈ escapes, r.IsSteady flags fun _ => True) :
    (quotation q escapes).IsSound flags fun w _ => w.head? = some q.opening := by
  intro s hs
  by_cases hc : s.current? = some q.opening
  · have hsound := isSound_quotation (q := q) trivial hescapes s hs
    generalize (quotation q escapes).eval flags s = o at hsound ⊢
    cases hsound with
    | @matched w t hw ht _ =>
      obtain ⟨c, v, rfl⟩ := List.exists_cons_of_ne_nil hw
      rw [current?_eq, ht.upcoming] at hc
      exact .matched hw ht hc
    | missed ht => exact .missed ht
  · rw [eval_quotation, Quotation.scan, if_neg hc]
    exact .missed (.refl s)

theorem isSound_comment {r : CommentRule} (h : ∀ s w t, s.IsFresh → s.Consumes w t →
    r.attempt flags s = some t → Q w t) : (comment r).IsSound flags Q := by
  intro s hs
  rw [eval_comment]
  refine sound_settle fun t ht => ?_
  obtain ⟨w, hne, hw⟩ := r.assembles_attempt ht
  exact ⟨w, hne, hw.consumes, h s w t hs hw.consumes ht⟩

theorem isSound_group {rules : List Rule} (h : ∀ r ∈ rules, r.IsSound flags Q) :
    (group rules).IsSound flags Q := by
  intro s hs
  rw [eval_group]
  exact sound_evalFirst h hs

theorem IsSound.mono {r : Rule} (h : r.IsSound flags Q) (hQ : ∀ w t, Q w t → Q' w t) :
    r.IsSound flags Q' :=
  fun s hs => (h s hs).mono fun w t _ => hQ w t

/-! ### Plain rules -/

/-- The rule is a literal. -/
def IsLiteral (r : Rule) : Prop :=
  ∃ l, r = literal l

/-- The rule decodes an escape. -/
def IsEscape (r : Rule) : Prop :=
  (∃ e, r = charEscape e) ∨ (∃ e, r = hexEscape e) ∨ ∃ e, r = octalEscape e

/-- Rules for tokens without functions of the user. The leads and suffixes of numbers are literals,
and quoted texts decode escapes only. -/
inductive IsPlain : Rule → Prop
  | span (r : SpanRule) : IsPlain (.span r)
  | name (r : NameRule) : IsPlain (.name r)
  | literal (r : LiteralRule) : IsPlain (.literal r)
  | number (f : Numeral) {lead : Option Rule} {suffixes : List Rule}
      (hlead : ∀ r ∈ lead, r.IsLiteral) (hsuffixes : ∀ r ∈ suffixes, r.IsLiteral) :
      IsPlain (.number f lead suffixes)
  | quotation (q : Quotation) {escapes : List Rule} (hescapes : ∀ r ∈ escapes, r.IsEscape) :
      IsPlain (.quotation q escapes)
  | comment (r : CommentRule) : IsPlain (.comment r)
  | group {rules : List Rule} (h : ∀ r ∈ rules, IsPlain r) : IsPlain (.group rules)

theorem IsLiteral.isSteady {r : Rule} (h : r.IsLiteral) : r.IsSteady flags fun _ => True := by
  obtain ⟨l, rfl⟩ := h
  exact isSteady_literal fun _ _ => trivial

theorem IsEscape.isSteady {r : Rule} (h : r.IsEscape) : r.IsSteady flags labels := by
  rcases h with ⟨e, rfl⟩ | ⟨e, rfl⟩ | ⟨e, rfl⟩
  · exact isSteady_charEscape e
  · exact isSteady_hexEscape e
  · exact isSteady_octalEscape e

/-- Plain rules are sound. -/
theorem IsPlain.isSound {r : Rule} (h : r.IsPlain) : r.IsSound flags fun _ _ => True := by
  induction h with
  | span r => exact isSound_span r
  | name r => exact (isSound_name r).mono fun _ _ _ => trivial
  | literal r => exact (isSound_literal r).mono fun _ _ _ => trivial
  | number f hlead hsuffixes =>
    have hlabels : f.Labels fun _ => True := ⟨trivial, trivial, fun _ _ => trivial⟩
    exact (isSound_number hlabels (fun r hr => (hlead r hr).isSteady)
      fun r hr => (hsuffixes r hr).isSteady).mono fun _ _ _ => trivial
  | @quotation q escapes hescapes =>
    have hsteady : ∀ r ∈ escapes, r.IsSteady flags fun _ => True :=
      fun r hr => (hescapes r hr).isSteady
    exact (isSound_quotation trivial hsteady).mono fun _ _ _ => trivial
  | comment r => exact isSound_comment fun _ _ _ _ _ _ => trivial
  | group _ ih => exact isSound_group ih

end Lexing.Rule
