import Lexing.Proofs.Rule.Outcome
import Lexing.Rule.Numeral

/-!
# What the rule for numbers matches

A number is consumed part by part. It has at least one digit, so it is not empty, and a number that
fails after a sign or a lead gives everything back.

## Main definitions

* `Scanner.Reads` : a part of a number was read.

## Main results

* `Numeral.sound_scan` : numbers, given that their leads and suffixes are steady.
-/

namespace Lexing

open Scanner

/-- Steps lead from `s` to the scanner of `r`, and `r` finds a digit only if one was `seen` before
or the steps consume text. -/
def Scanner.Reads (labels : String → Prop) (seen : Bool) (s : Scanner) (r : Bool × Scanner) :
    Prop :=
  ∃ w, Assembles labels s w r.2 ∧ (r.1 = true → seen = true ∨ w ≠ [])

namespace Numeral

variable {labels : String → Prop} {f : Numeral} {s : Scanner}

/-- Nothing is consumed where no digit and no separator stands. -/
theorem digitsWithin_of_stop (hdigit : s.isIn f.digit = false) (hseparates : f.separates s = false)
    (bound : List Char) (seen : Bool) : f.digitsWithin bound seen s = (seen, s) := by
  cases bound with
  | nil => rfl
  | cons => simp [digitsWithin, hdigit, hseparates]

theorem reads_digitsWithin (bound : List Char) (seen : Bool) (s : Scanner) :
    Reads labels seen s (f.digitsWithin bound seen s) := by
  induction bound generalizing seen s with
  | nil => exact ⟨[], .refl, .inl⟩
  | cons _ bound ih =>
    rw [digitsWithin]
    split
    · rename_i hin
      obtain ⟨c, hc, -⟩ := exists_of_isIn hin
      obtain ⟨w, hw, -⟩ := ih true s.keep
      exact ⟨c :: w, (assembles_keep hc).trans hw, fun _ => .inr (List.cons_ne_nil c w)⟩
    · split
      · obtain ⟨w, hw, hseen⟩ := ih seen s.skip
        refine ⟨_, Assembles.refl.skip.trans hw, fun h => (hseen h).imp_right fun hne => ?_⟩
        exact List.append_ne_nil_of_right_ne_nil _ hne
      · exact ⟨[], .refl, .inl⟩

theorem reads_digits (f : Numeral) (labels : String → Prop) (s : Scanner) :
    Reads labels false s (f.digits s) :=
  reads_digitsWithin ..

theorem reads_fraction (hreal : labels f.realKind) (seen : Bool) (s : Scanner) :
    Reads labels seen s (f.fraction seen s) := by
  unfold fraction
  split
  · rename_i hpoint
    obtain ⟨c, hc, -⟩ := exists_of_isIn (Bool.and_eq_true_iff.mp hpoint).1
    have hkept : Assembles labels s [c] (s.setKind f.realKind).keep :=
      (Assembles.refl.setKind hreal).trans (assembles_keep hc)
    obtain ⟨w, hw, -⟩ := f.reads_digits labels (s.setKind f.realKind).keep
    exact ⟨c :: w, hkept.trans hw, fun _ => .inr (List.cons_ne_nil c w)⟩
  · exact ⟨[], .refl, .inl⟩

theorem assembles_exponentPart (hreal : labels f.realKind) (s : Scanner) :
    ∃ w, Assembles labels s w (f.exponentPart s) := by
  unfold exponentPart
  split
  · have hflag : Assembles labels s _ (s.setKind f.realKind).keep :=
      (Assembles.refl.setKind hreal).keep
    dsimp only
    split
    · obtain ⟨w, hw, -⟩ := f.reads_digits labels (s.setKind f.realKind).keep.keep
      exact ⟨_, hflag.keep.trans hw⟩
    · obtain ⟨w, hw, -⟩ := f.reads_digits labels (s.setKind f.realKind).keep
      exact ⟨_, hflag.trans hw⟩
  · exact ⟨_, .refl⟩

/-- Digits, fraction and exponent are not empty if there is a digit. -/
theorem reads_body (hreal : labels f.realKind) (s : Scanner) :
    Reads labels false s (f.body s) := by
  unfold body
  split
  · rename_i hzero
    have hc : s.current? = some '0' := by
      simp only [isLoneZero, Bool.and_eq_true, beq_iff_eq] at hzero
      exact hzero.1.1.2
    exact ⟨['0'], assembles_keep hc, fun _ => .inr (List.cons_ne_nil _ _)⟩
  · obtain ⟨v, hv, hwhole⟩ := f.reads_digits labels s
    obtain ⟨w, hw, hseen⟩ := reads_fraction hreal (f.digits s).1 (f.digits s).2
    have hvw : (f.fraction (f.digits s).1 (f.digits s).2).1 = true → v ++ w ≠ [] := by
      intro h
      rcases hseen h with h | h
      · exact List.append_ne_nil_of_left_ne_nil ((hwhole h).resolve_left Bool.false_ne_true) w
      · exact List.append_ne_nil_of_right_ne_nil v h
    dsimp only
    split
    · rename_i h
      obtain ⟨x, hx⟩ := assembles_exponentPart hreal (f.fraction (f.digits s).1 (f.digits s).2).2
      exact ⟨_, (hv.trans hw).trans hx,
        fun _ => .inr (List.append_ne_nil_of_left_ne_nil (hvw h) x)⟩
    · exact ⟨_, hv.trans hw, fun h => absurd h Bool.false_ne_true⟩

theorem assembles_takeSign (f : Numeral) (labels : String → Prop) (s : Scanner) :
    ∃ w, Assembles labels s w (f.takeSign s) := by
  unfold takeSign
  split
  · exact ⟨_, Assembles.refl.keep⟩
  · exact ⟨_, .refl⟩

theorem assembles_passLeadingSeparator (f : Numeral) (labels : String → Prop) (s : Scanner) :
    ∃ w, Assembles labels s w (f.passLeadingSeparator s) := by
  unfold passLeadingSeparator
  split
  · exact ⟨_, Assembles.refl.skip⟩
  · exact ⟨_, .refl⟩

/-- The kinds that a number may be given. -/
def Labels (f : Numeral) (labels : String → Prop) : Prop :=
  labels f.integerKind ∧ labels f.realKind ∧ ∀ kind ∈ f.kind, labels kind

/-- A number is not empty and has a kind among `labels`. If there is none, everything is given back.
-/
theorem sound_scan (hf : f.Labels labels) {lead suffix : Scanner → Outcome}
    (hlead : ∀ s, Outcome.Steady labels s (lead s))
    (hsuffix : ∀ s, Outcome.Steady labels s (suffix s)) (hs : s.IsFresh) :
    Outcome.Sound (fun _ t => labels t.draft.kind ∨ t.draft.kind = Kind.illegal) s
      (f.scan lead suffix s) := by
  obtain ⟨hinteger, hreal, hkind⟩ := hf
  obtain ⟨v, hsign⟩ := f.assembles_takeSign labels s
  have hled := hlead (f.takeSign s)
  unfold scan
  generalize lead (f.takeSign s) = o at hled ⊢
  cases hled with
  | missed => exact .missed (hsign.consumes.restores_rewind hs)
  | matched hw =>
    rename_i w t
    obtain ⟨x, hx⟩ := f.assembles_passLeadingSeparator labels (t.setKind f.integerKind)
    obtain ⟨y, hy, hseen⟩ := reads_body hreal (f.passLeadingSeparator (t.setKind f.integerKind))
    have hstart : Assembles labels s (v ++ w) (t.setKind f.integerKind) :=
      (hsign.trans hw).setKind hinteger
    have hbody := hx.trans hy
    change Outcome.Sound _ s
      (if !(f.body _).1 then _ else suffix ((f.body _).2.setKind? f.kind) >>= _)
    split
    · exact .missed ((hstart.trans hbody).consumes.restores_rewind hs)
    · rename_i hfound
      have hne : y ≠ [] := (hseen (by simpa using hfound)).resolve_left Bool.false_ne_true
      have hrest := hsuffix
        ((f.body (f.passLeadingSeparator (t.setKind f.integerKind))).2.setKind? f.kind)
      obtain ⟨matched, z, u, hu, hz⟩ := hrest.exists_assembles
      have hnumber := (hbody.setKind? hkind).trans hz
      rw [hu]
      refine .matched ?_ (hstart.trans hnumber).consumes ?_
      · simp [hne]
      · rcases hnumber.kind_eq with h | h | h
        · exact .inl (h ▸ hinteger)
        · exact .inl h
        · exact .inr h

end Numeral

end Lexing
