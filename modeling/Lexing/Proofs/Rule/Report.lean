import Lexing.Proofs.Rule.BuiltIn

/-!
# What rules report

A rule that reports a problem makes the draft illegal. The kind of the draft and its diagnostics say
the same if no other kind is given after that. Words and numbers report nothing, so they may give
kinds as they like. Quoted texts have been given their kind before anything is reported. Comments
are given their kind last, but only if there is none.

## Main definitions

* `Scanner.IsTagged` : kind and diagnostics of the draft say the same.
* `Scanner.IsInvariant` : a property that moves and labels preserve.
* `Scanner.IsUnmarked` : nothing was reported.

## Main results

* `Numeral.invariant_scan` : what moves and labels preserve, numbers preserve.
* `Rule.tags_literal`, `Rule.tags_name`, `Rule.tags_number`, `Rule.tags_quotation`,
  `Rule.tags_comment` : drafts after a match.
-/

namespace Lexing

namespace Scanner

/-! ### Drafts with reports -/

/-- Something was reported if and only if the draft is illegal. Every report is about the text of the
draft. -/
structure IsTagged (s : Scanner) : Prop where
  illegal_iff : s.draft.diagnostics ≠ #[] ↔ s.draft.kind = Kind.illegal
  report : ∀ d ∈ s.draft.diagnostics, d.position = s.start ∧ d.cause = none

variable {labels : String → Prop} {s t : Scanner} {w : List Char} {m : Move}

theorem diagnostics_apply (hm : m.IsForward) (s : Scanner) :
    (m.apply s).draft.diagnostics = s.draft.diagnostics := by
  rcases hm with rfl | rfl
  · exact diagnostics_keep s
  · exact diagnostics_skip s

theorem isTagged_of_diagnostics_eq (h : s.draft.diagnostics = #[])
    (hkind : s.draft.kind ≠ Kind.illegal) : s.IsTagged :=
  ⟨by simp [h, hkind], by simp [h]⟩

namespace IsTagged

theorem apply (hm : m.IsForward) (h : s.IsTagged) : (m.apply s).IsTagged where
  illegal_iff := by rw [diagnostics_apply hm, kind_apply hm, h.illegal_iff]
  report := by
    rw [diagnostics_apply hm, (consumes_apply hm s).start]
    exact h.report

theorem reject (h : s.IsTagged) (problem : Problem) : (s.reject problem).IsTagged where
  illegal_iff := by simp [Scanner.reject]
  report d hd := by
    rcases Array.mem_push.mp hd with hd | rfl
    · exact h.report d hd
    · exact ⟨rfl, rfl⟩

/-- Steps that give no kind keep the draft as it should be. -/
theorem assembles (h : s.IsTagged) (ht : Assembles (fun _ => False) s w t) : t.IsTagged := by
  induction ht with
  | refl => exact h
  | move _ hm ih => exact ih.apply hm
  | pushChar _ _ ih => exact ⟨ih.illegal_iff, ih.report⟩
  | pushByte _ _ ih => exact ⟨ih.illegal_iff, ih.report⟩
  | reject _ problem ih => exact ih.reject problem
  | setKind _ hk => exact hk.elim

/-- A kind may be given if nothing was reported. -/
theorem setKind (h : s.IsTagged) (hs : s.draft.kind ≠ Kind.illegal) {kind : String}
    (hkind : kind ≠ Kind.illegal) : (s.setKind kind).IsTagged := by
  have hnone : s.draft.diagnostics = #[] := not_not.mp fun hsome => hs (h.illegal_iff.mp hsome)
  exact isTagged_of_diagnostics_eq hnone hkind

end IsTagged

/-! ### Properties that moves and labels preserve -/

/-- The property is preserved by moving on and by giving a kind among `labels`. -/
structure IsInvariant (labels : String → Prop) (P : Scanner → Prop) : Prop where
  apply : ∀ {s m}, Move.IsForward m → P s → P (m.apply s)
  setKind : ∀ {s kind}, labels kind → P s → P (s.setKind kind)

/-- Nothing was reported, and the draft has no kind or one among `labels`. -/
structure IsUnmarked (labels : String → Prop) (s : Scanner) : Prop where
  diagnostics : s.draft.diagnostics = #[]
  kind : s.draft.kind = "" ∨ labels s.draft.kind

theorem isInvariant_isUnmarked (labels : String → Prop) :
    IsInvariant labels (IsUnmarked labels) where
  apply hm h := ⟨(diagnostics_apply hm _).trans h.diagnostics, by rw [kind_apply hm]; exact h.kind⟩
  setKind hk h := ⟨h.diagnostics, .inr hk⟩

theorem IsFresh.isUnmarked (h : s.IsFresh) : s.IsUnmarked labels :=
  ⟨by rw [h.1], .inl (by rw [h.1])⟩

theorem IsUnmarked.isTagged (h : s.IsUnmarked labels) (hillegal : ¬labels Kind.illegal) :
    s.IsTagged := by
  refine isTagged_of_diagnostics_eq h.diagnostics fun hkind => ?_
  rcases h.kind with hempty | hlabel
  · exact absurd (hempty.symm.trans hkind) (by decide)
  · exact hillegal (hkind ▸ hlabel)

namespace IsInvariant

variable {P : Scanner → Prop} (hP : IsInvariant labels P)

include hP

theorem setKind? {kind : Option String} (hk : ∀ k ∈ kind, labels k) (h : P s) :
    P (s.setKind? kind) := by
  cases kind with
  | none => exact h
  | some k => exact hP.setKind (hk k rfl) h

theorem times (hm : m.IsForward) (n : Nat) (h : P s) : P (s.times n m) := by
  induction n generalizing s with
  | zero => exact h
  | succ n ih => exact ih (hP.apply hm h)

theorem whileIn (hm : m.IsForward) (k : CharClass) (h : P s) : P (s.whileIn k m) := by
  rw [Scanner.whileIn]
  generalize s.upcoming.chars = bound
  induction bound generalizing s with
  | nil => exact h
  | cons _ bound ih =>
    rw [moveWhile]
    split
    · exact ih (hP.apply hm h)
    · exact h

end IsInvariant

end Scanner

open Scanner

variable {labels : String → Prop} {P : Scanner → Prop} (hP : IsInvariant labels P) {s t : Scanner}

/-! ### Words -/

include hP in
theorem LiteralRule.invariant_attempt {r : LiteralRule} (hk : ∀ kind ∈ r.kind, labels kind)
    (h : r.attempt s = some t) (hs : P s) : P t := by
  rw [attempt] at h
  split at h
  · exact absurd h (Option.some_ne_none t).symm
  · obtain rfl := Option.some.inj h
    exact hP.setKind? hk (hP.times (Move.isForward_ite r.skipped) _ hs)

include hP in
theorem NameRule.invariant_attempt {r : NameRule} (hk : labels r.kind)
    (h : r.attempt s = some t) (hs : P s) : P t := by
  have hword : P (s.keep.whileIn r.tail .keep) :=
    hP.whileIn (.inl rfl) r.tail (hP.apply (.inl rfl) hs)
  rw [attempt] at h
  split at h
  · exact absurd h (Option.some_ne_none t).symm
  · obtain rfl := Option.some.inj h
    split
    · exact hword
    · exact hP.setKind hk hword

/-! ### Numbers -/

namespace Numeral

variable {f : Numeral} {lead suffix : Scanner → Outcome}

include hP

theorem invariant_digitsWithin (bound : List Char) (seen : Bool) (hs : P s) :
    P (f.digitsWithin bound seen s).2 := by
  induction bound generalizing seen s with
  | nil => exact hs
  | cons _ bound ih =>
    rw [digitsWithin]
    split
    · exact ih true (hP.apply (.inl rfl) hs)
    · split
      · exact ih seen (hP.apply (.inr rfl) hs)
      · exact hs

theorem invariant_fraction (hreal : labels f.realKind) (seen : Bool) (hs : P s) :
    P (f.fraction seen s).2 := by
  rw [fraction]
  split
  · exact invariant_digitsWithin hP _ _ (hP.apply (.inl rfl) (hP.setKind hreal hs))
  · exact hs

theorem invariant_exponentPart (hreal : labels f.realKind) (hs : P s) : P (f.exponentPart s) := by
  have hflag : P (s.setKind f.realKind).keep := hP.apply (.inl rfl) (hP.setKind hreal hs)
  rw [exponentPart]
  split
  · refine invariant_digitsWithin hP _ _ ?_
    split
    · exact hP.apply (.inl rfl) hflag
    · exact hflag
  · exact hs

theorem invariant_core (hf : f.Labels labels) (hs : P s) : P (f.core s).2 := by
  have hpassed : P (f.passLeadingSeparator (s.setKind f.integerKind)) := by
    rw [passLeadingSeparator]
    split
    · exact hP.apply (.inr rfl) (hP.setKind hf.1 hs)
    · exact hP.setKind hf.1 hs
  rw [core, body]
  split
  · exact hP.apply (.inl rfl) hpassed
  · have hdigits : P (f.digits (f.passLeadingSeparator (s.setKind f.integerKind))).2 :=
      invariant_digitsWithin hP _ false hpassed
    have hfraction := invariant_fraction hP hf.2.1
      (f.digits (f.passLeadingSeparator (s.setKind f.integerKind))).1 hdigits
    dsimp only
    split
    · exact invariant_exponentPart hP hf.2.1 hfraction
    · exact hfraction

/-- What moves and labels preserve is preserved by numbers whose leads and suffixes do. -/
theorem invariant_scan (hf : f.Labels labels)
    (hlead : ∀ s t, P s → lead s = .ok (true, t) → P t)
    (hsuffix : ∀ s found t, P s → suffix s = .ok (found, t) → P t)
    (h : f.scan lead suffix s = .ok (true, t)) (hs : P s) : P t := by
  obtain ⟨u, found, hu, -, ht⟩ := exists_of_match h
  have hsign : P (f.takeSign s) := by
    rw [takeSign]
    split
    · exact hP.apply (.inl rfl) hs
    · exact hs
  have hcore := invariant_core hP hf (hlead _ _ hsign hu)
  exact hsuffix _ _ _ (hP.setKind? hf.2.2 hcore) ht

end Numeral

/-! ### Drafts after a match -/

namespace Rule

variable {flags : Flags} {r : Rule}

/-- A rule that is an attempt matches where the attempt does. -/
theorem eq_some_of_settle {attempt : Option Scanner}
    (h : Outcome.settle s attempt = .ok (true, t)) : attempt = some t := by
  cases attempt with
  | none => exact absurd (Prod.mk.inj (Except.ok.inj h)).1 Bool.false_ne_true
  | some u => rw [(Prod.mk.inj (Except.ok.inj h)).2]

include hP in
theorem invariant_literal {l : LiteralRule} (hk : ∀ kind ∈ l.kind, labels kind) {found : Bool}
    (h : (literal l).eval flags s = .ok (found, t)) (hs : P s) : P t := by
  cases found with
  | true => exact l.invariant_attempt hP hk (eq_some_of_settle h) hs
  | false =>
    cases hattempt : l.attempt s with
    | none =>
      rw [eval_literal, hattempt] at h
      rwa [← (Prod.mk.inj (Except.ok.inj h)).2]
    | some u =>
      rw [eval_literal, hattempt] at h
      exact absurd (Prod.mk.inj (Except.ok.inj h)).1.symm Bool.false_ne_true

/-- The rule is a literal that gives a kind among `labels` or none. -/
def IsLiteralWith (labels : String → Prop) (r : Rule) : Prop :=
  ∃ l, r = literal l ∧ ∀ kind ∈ l.kind, labels kind

theorem IsLiteralWith.isSteady (h : r.IsLiteralWith labels) : r.IsSteady flags labels := by
  obtain ⟨l, rfl, hk⟩ := h
  exact isSteady_literal hk

include hP in
theorem IsLiteralWith.invariant_eval (h : r.IsLiteralWith labels) {found : Bool}
    (ht : r.eval flags s = .ok (found, t)) (hs : P s) : P t := by
  obtain ⟨l, rfl, hk⟩ := h
  exact invariant_literal hP hk ht hs

include hP in
theorem invariant_evalFirst {rules : List Rule} (h : ∀ r ∈ rules, r.IsLiteralWith labels)
    {found : Bool} (ht : evalFirst flags rules s = .ok (found, t)) (hs : P s) : P t := by
  induction rules generalizing s with
  | nil =>
    obtain ⟨-, rfl⟩ := Prod.mk.inj (Except.ok.inj ht)
    exact hs
  | cons r rs ih =>
    obtain ⟨hr, hrs⟩ := List.forall_mem_cons.mp h
    rcases evalFirst_cases ht with ⟨he, -⟩ | ⟨u, hu, hrest⟩
    · exact hr.invariant_eval hP he hs
    · exact ih hrs hrest (hr.invariant_eval hP hu hs)

include hP in
theorem invariant_evalLead {lead : Option Rule} (h : ∀ r ∈ lead, r.IsLiteralWith labels)
    {found : Bool} (ht : evalLead flags lead s = .ok (found, t)) (hs : P s) : P t := by
  cases lead with
  | none =>
    obtain ⟨-, rfl⟩ := Prod.mk.inj (Except.ok.inj ht)
    exact hs
  | some r => exact (h r rfl).invariant_eval hP ht hs

/-- After a match at the beginning of a token, the kind of the draft and its diagnostics say the same,
and a draft without a kind will not be taken for an illegal one. -/
def Tags (flags : Flags) (r : Rule) : Prop :=
  ∀ s t, s.IsFresh → r.eval flags s = .ok (true, t) →
    t.IsTagged ∧ (t.draft.kind = "" → t.valueText ≠ Kind.illegal)

theorem tags_literal {l : LiteralRule} (hkind : Kind.illegal ∉ l.kind)
    (hwords : ¬l.words.contains Kind.illegal.toList) (hskipped : l.skipped = false) :
    (literal l).Tags flags := by
  intro s t hs h
  have hattempt := eq_some_of_settle h
  obtain ⟨w, hword, -, hvalue, -⟩ := LiteralRule.attempt_eq_some hattempt
  have hunmarked : t.IsUnmarked (· ∈ l.kind) :=
    l.invariant_attempt (isInvariant_isUnmarked _) (fun _ => id) hattempt hs.isUnmarked
  rw [hs.1, hskipped, if_neg Bool.false_ne_true, Draft.value_empty, List.nil_append] at hvalue
  refine ⟨hunmarked.isTagged hkind, fun _ htext => hwords ?_⟩
  rw [valueText_of_value_eq hvalue] at htext
  rwa [← htext, String.toList_ofList]

theorem tags_name {n : NameRule} (hillegal : n.kind ≠ Kind.illegal) (hempty : n.kind ≠ "")
    (hkeywords : Kind.illegal ∉ n.keywords) : (name n).Tags flags := by
  intro s t hs h
  have hattempt := eq_some_of_settle h
  have hunmarked : t.IsUnmarked (· = n.kind) :=
    n.invariant_attempt (isInvariant_isUnmarked _) rfl hattempt hs.isUnmarked
  refine ⟨hunmarked.isTagged hillegal.symm, fun hkind htext => ?_⟩
  rcases n.kind_attempt hattempt with hname | ⟨-, hkeyword⟩
  · exact hempty (hname.symm.trans hkind)
  · exact hkeywords (htext ▸ hkeyword)

theorem tags_number {f : Numeral} {lead : Option Rule} {suffixes : List Rule}
    (hf : f.Labels labels) (hillegal : ¬labels Kind.illegal) (hempty : ¬labels "")
    (hlead : ∀ r ∈ lead, r.IsLiteralWith labels)
    (hsuffixes : ∀ r ∈ suffixes, r.IsLiteralWith labels) :
    (number f lead suffixes).Tags flags := by
  intro s t hs h
  have hP := isInvariant_isUnmarked labels
  have hunmarked : t.IsUnmarked labels := f.invariant_scan hP hf
    (fun _ _ hs ht => invariant_evalLead hP hlead ht hs)
    (fun _ _ _ hs ht => invariant_evalFirst hP hsuffixes ht hs) h hs.isUnmarked
  refine ⟨hunmarked.isTagged hillegal, fun hkind => ?_⟩
  have hsound : Outcome.Sound _ s ((number f lead suffixes).eval flags s) :=
    isSound_number hf (fun r hr => (hlead r hr).isSteady)
      (fun r hr => (hsuffixes r hr).isSteady) s hs
  rw [h] at hsound
  cases hsound with
  | matched _ _ hlabel =>
    rw [hkind] at hlabel
    exact absurd hlabel (not_or.mpr ⟨hempty, by decide⟩)

theorem relatesSteps_assembles {q : Quotation} {escapes : Scanner → Outcome}
    (hescapes : ∀ s, Outcome.Steady labels s (escapes s)) :
    q.RelatesSteps escapes fun s t => ∃ w, Assembles labels s w t where
  trans := fun ⟨_, h₁⟩ ⟨_, h₂⟩ => ⟨_, h₁.trans h₂⟩
  keep _ := ⟨_, Assembles.refl.keep⟩
  skip _ := ⟨_, Assembles.refl.skip⟩
  reject _ problem := ⟨_, Assembles.refl.reject problem⟩
  recover hm s := q.assembles_recover labels hm s
  escapes s matched t h := by
    obtain ⟨_, w, u, hu, hw⟩ := (hescapes s).exists_assembles
    obtain ⟨-, rfl⟩ := Prod.mk.inj (Except.ok.inj (h.symm.trans hu))
    exact ⟨w, hw⟩

theorem tags_quotation {q : Quotation} {escapes : List Rule} (hillegal : q.kind ≠ Kind.illegal)
    (hempty : q.kind ≠ "") (hescapes : ∀ r ∈ escapes, r.IsEscape) :
    (quotation q escapes).Tags flags := by
  have hsteady : ∀ s, Outcome.Steady (fun _ => False) s (evalFirst flags escapes s) :=
    steady_evalFirst fun r hr => (hescapes r hr).isSteady
  intro s t hs h
  rw [eval_quotation] at h
  rcases Quotation.scan_cases h with ⟨hm, -⟩ | ⟨-, hc, bound, hbody⟩
  · exact absurd hm.symm Bool.false_ne_true
  · obtain ⟨w, hw⟩ := (relatesSteps_assembles hsteady).body hbody
    have hopened : (s.skip.setKind q.kind).IsTagged := by
      refine isTagged_of_diagnostics_eq ?_ hillegal
      rw [setKind, diagnostics_skip, hs.1]
    refine ⟨hopened.assembles hw, fun hkind => ?_⟩
    rcases hw.kind_eq with h | h | h
    · exact absurd (h.symm.trans hkind) hempty
    · exact h.elim
    · exact absurd (h.symm.trans hkind) (by decide)

theorem tags_comment {r : CommentRule} (hskipped : r.opening.skipped = true)
    (hopening : r.opening.kind = none) (hillegal : r.kind ≠ Kind.illegal) (hempty : r.kind ≠ "") :
    (comment r).Tags flags := by
  intro s t hs h
  obtain ⟨b, hb, rfl⟩ := CommentRule.attempt_eq_some (eq_some_of_settle h)
  obtain ⟨_, -, -, hvalue, hkind⟩ := LiteralRule.attempt_eq_some hb
  simp only [hs.1, hskipped, hopening, ↓reduceIte, List.append_nil, Option.getD_none,
    Draft.value_empty] at hvalue hkind
  have hopened : b.IsUnmarked fun _ => False := r.opening.invariant_attempt
    (isInvariant_isUnmarked _) (by simp [hopening]) hb hs.isUnmarked
  obtain ⟨w, hw⟩ := CommentRule.assembles_body (r := r) (fun _ => False)
    (r.keepFlag.any flags) b
  have htagged := (hopened.isTagged id).assembles hw
  rw [CommentRule.label]
  split
  · rename_i hlabel
    have hnone := String.isEmpty_iff.mp (Bool.and_eq_true_iff.mp hlabel).2
    exact ⟨htagged.setKind (hnone ▸ by decide) hillegal, fun h => absurd h hempty⟩
  · rename_i hlabel
    refine ⟨htagged, fun hnone htext => ?_⟩
    have hdropped : r.keepFlag.any flags = false := by simpa [hnone] using hlabel
    rw [hdropped] at hnone htext
    rcases CommentRule.body_of_not_kept (r := r) (s := b) rfl with hkind | ⟨hblank, -⟩
    · exact absurd (hkind.symm.trans hnone) (by decide)
    · have hnil := isEmpty_valueText.mpr (hblank.trans hvalue)
      exact absurd hnil (htext ▸ by decide)

end Rule

end Lexing
