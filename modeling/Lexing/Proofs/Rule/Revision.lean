import Lexing.Proofs.Rule.Escape
import Lexing.Proofs.Rule.Numeral
import Lexing.Proofs.Scanner.Revision
import Lexing.Rule.Quotation

/-!
# How rules revise a draft

Numbers and quoted texts are made of other rules, which are tried within the draft. If those revise
the draft, so do numbers and quoted texts. A number that fails has gone back to the beginning of the
draft, whatever its lead has done.

Only runs that come to an end are considered: escapes that give back what was consumed before them
may keep the body of a quoted text going for ever.

## Main definitions

* `Outcome.Revises` : the draft was revised, unless there was a fault.
* `Quotation.RelatesSteps` : what holds for each step of a quoted text.

## Main results

* `CharEscape.revises_attempt`, `HexEscape.revises_attempt`, `OctalEscape.revises_attempt`.
* `Numeral.scan_cases`, `Numeral.revises_scan` : numbers.
* `Numeral.restores_of_miss` : numbers that fail.
* `Quotation.RelatesSteps.body`, `Quotation.revises_scan` : quoted texts.
-/

namespace Lexing

open Scanner

/-- A computation that ends well has ended well up to each of its steps. -/
theorem exists_of_bind_eq_ok {α β : Type} {x : Except Fault α} {f : α → Except Fault β} {b : β}
    (h : x >>= f = .ok b) : ∃ a, x = .ok a ∧ f a = .ok b := by
  cases x with
  | error fault => exact absurd h (by simp [bind, Except.bind])
  | ok a => exact ⟨a, rfl, h⟩

variable {labels : String → Prop} {s t u : Scanner} {matched : Bool}

/-- If the outcome is no fault, the draft was revised. -/
def Outcome.Revises (labels : String → Prop) (s : Scanner) (o : Outcome) : Prop :=
  ∀ matched t, o = .ok (matched, t) → s.Revises labels t

/-- An attempt revises the draft if its matches do. -/
theorem Outcome.revises_settle {attempt : Option Scanner}
    (h : ∀ t, attempt = some t → s.Revises labels t) :
    Outcome.Revises labels s (settle s attempt) := by
  intro matched t ht
  rcases attempt with _ | u
  · obtain ⟨-, rfl⟩ := Prod.mk.inj (Except.ok.inj ht)
    exact .refl s
  · obtain ⟨-, rfl⟩ := Prod.mk.inj (Except.ok.inj ht)
    exact h u rfl

/-! ### Escapes -/

theorem CharEscape.revises_attempt {e : CharEscape} (h : e.attempt s = some t) :
    s.Revises labels t := by
  obtain ⟨c, hc, rfl⟩ := Option.map_eq_some_iff.mp h
  obtain ⟨d, hd, -⟩ := Option.bind_eq_some_iff.mp hc
  have hpushed : Assembles labels s [] (s.pushChar c) := .pushChar .refl c
  have hskipped := hpushed.trans (assembles_skip (show (s.pushChar c).current? = some d from hd))
  exact hskipped.revises_of_ne_nil (List.cons_ne_nil d [])

theorem HexEscape.revises_attempt {e : HexEscape} (h : e.attempt s = some t) :
    s.Revises labels t := by
  unfold HexEscape.attempt at h
  split at h
  · rename_i hflag
    obtain rfl := Option.some.inj h
    obtain ⟨w, hdigits⟩ : ∃ w, Assembles labels s.skip w (e.decodeDigits s.skip) :=
      e.assembles_decodeDigits s.skip
    exact ((assembles_skip hflag).trans hdigits).revises_of_ne_nil (List.cons_ne_nil e.flag w)
  · exact absurd h (Option.some_ne_none t).symm

theorem OctalEscape.revises_attempt {e : OctalEscape} (h : e.attempt s = some t) :
    s.Revises labels t := by
  have hskipped : Assembles labels s _ (s.times 3 .skip) := assembles_times (.inr rfl) ..
  unfold OctalEscape.attempt at h
  split at h
  · exact absurd h (Option.some_ne_none t).symm
  · rename_i hdigit
    obtain ⟨c, hc, -⟩ := exists_of_isIn (by simpa using hdigit)
    have hne : s.upcoming.chars.take 3 ≠ [] := by
      rw [upcoming_of_current? hc]
      exact List.cons_ne_nil _ _
    dsimp only at h
    split at h
    · obtain rfl := Option.some.inj h
      exact (Revises.refl s).reject _
    · split at h
      · obtain rfl := Option.some.inj h
        exact (hskipped.pushByte _).revises_of_ne_nil hne
      · obtain rfl := Option.some.inj h
        exact (hskipped.pushChar _).revises_of_ne_nil hne

/-! ### Numbers -/

namespace Numeral

variable {f : Numeral} {lead suffix : Scanner → Outcome}

/-- Consumes what stands between the lead and the suffix of a number. The result says whether there
was a digit. -/
def core (f : Numeral) (s : Scanner) : Bool × Scanner :=
  f.body (f.passLeadingSeparator (s.setKind f.integerKind))

theorem reads_core (hf : f.Labels labels) (s : Scanner) : Reads labels false s (f.core s) := by
  obtain ⟨v, hv⟩ := f.assembles_passLeadingSeparator labels (s.setKind f.integerKind)
  obtain ⟨w, hw, hseen⟩ := reads_body hf.2.1 (f.passLeadingSeparator (s.setKind f.integerKind))
  have hstart : Assembles labels s [] (s.setKind f.integerKind) := .setKind .refl hf.1
  refine ⟨v ++ w, hstart.trans (hv.trans hw), fun h => (hseen h).imp_right fun hne => ?_⟩
  exact List.append_ne_nil_of_right_ne_nil v hne

/-- A number fails at its lead or for lack of digits, and rewinds. Otherwise it matches, whatever
becomes of its suffix. -/
theorem scan_cases (h : f.scan lead suffix s = .ok (matched, t)) :
    (∃ u, lead (f.takeSign s) = .ok (false, u) ∧ matched = false ∧ t = u.rewind) ∨
      (∃ u, lead (f.takeSign s) = .ok (true, u) ∧ (f.core u).1 = false ∧ matched = false ∧
        t = (f.core u).2.rewind) ∨
      ∃ u found, lead (f.takeSign s) = .ok (true, u) ∧ (f.core u).1 = true ∧ matched = true ∧
        suffix ((f.core u).2.setKind? f.kind) = .ok (found, t) := by
  obtain ⟨⟨led, u⟩, hlead, h⟩ := exists_of_bind_eq_ok h
  cases led with
  | false =>
    obtain ⟨rfl, rfl⟩ := Prod.mk.inj (Except.ok.inj h)
    exact .inl ⟨u, hlead, rfl, rfl⟩
  | true =>
    change (if !(f.core u).1 then Except.ok (false, (f.core u).2.rewind)
      else suffix ((f.core u).2.setKind? f.kind) >>= fun p => .ok (true, p.2)) =
        .ok (matched, t) at h
    split at h
    · rename_i hseen
      obtain ⟨rfl, rfl⟩ := Prod.mk.inj (Except.ok.inj h)
      exact .inr (.inl ⟨u, hlead, by simpa using hseen, rfl, rfl⟩)
    · rename_i hseen
      obtain ⟨⟨found, v⟩, hsuffix, h⟩ := exists_of_bind_eq_ok h
      obtain ⟨rfl, rfl⟩ := Prod.mk.inj (Except.ok.inj h)
      exact .inr (.inr ⟨u, found, hlead, by simpa using hseen, rfl, hsuffix⟩)

/-- A number that matches has its lead and a digit. -/
theorem exists_of_match (h : f.scan lead suffix s = .ok (true, t)) :
    ∃ u found, lead (f.takeSign s) = .ok (true, u) ∧ (f.core u).1 = true ∧
      suffix ((f.core u).2.setKind? f.kind) = .ok (found, t) := by
  rcases scan_cases h with ⟨_, -, hm, -⟩ | ⟨_, -, -, hm, -⟩ | ⟨u, found, hu, hseen, -, ht⟩
  · exact absurd hm.symm Bool.false_ne_true
  · exact absurd hm.symm Bool.false_ne_true
  · exact ⟨u, found, hu, hseen, ht⟩

theorem revises_takeSign (f : Numeral) (s : Scanner) : s.Revises labels (f.takeSign s) := by
  unfold takeSign
  split
  · exact revises_keep s
  · exact .refl s

theorem revises_core (hf : f.Labels labels) (h : (f.core s).1 = true) :
    s.Revises labels (f.core s).2 := by
  obtain ⟨w, hw, hseen⟩ := reads_core hf s
  exact hw.revises_of_ne_nil ((hseen h).resolve_left Bool.false_ne_true)

/-- The draft in which a number fails, before it rewinds. -/
theorem sharesDraft_of_miss (hf : f.Labels labels)
    (hlead : ∀ s, Outcome.Revises labels s (lead s))
    (h : f.scan lead suffix s = .ok (false, t)) : ∃ u, s.SharesDraft u ∧ t = u.rewind := by
  have hsign : s.Revises labels (f.takeSign s) := f.revises_takeSign s
  rcases scan_cases h with ⟨u, hu, -, rfl⟩ | ⟨u, hu, -, -, rfl⟩ | ⟨u, -, -, -, hm, -⟩
  · exact ⟨u, (hsign.trans (hlead _ _ _ hu)).toSharesDraft, rfl⟩
  · obtain ⟨w, hw, -⟩ := reads_core hf u
    have hled := (hsign.trans (hlead _ _ _ hu)).toSharesDraft
    exact ⟨(f.core u).2, hled.trans hw.consumes.sharesDraft, rfl⟩
  · exact absurd hm Bool.false_ne_true

/-- A number that fails leaves the scanner at the beginning of the draft, wherever it was tried. -/
theorem restores_of_miss (hf : f.Labels labels)
    (hlead : ∀ s, Outcome.Revises labels s (lead s))
    (h : f.scan lead suffix s = .ok (false, t)) : s.rewind.Restores t := by
  obtain ⟨u, hu, rfl⟩ := sharesDraft_of_miss hf hlead h
  exact hu.restores_rewind

/-- Numbers revise the draft if their leads and suffixes do. -/
theorem revises_scan (hf : f.Labels labels) (hlead : ∀ s, Outcome.Revises labels s (lead s))
    (hsuffix : ∀ s, Outcome.Revises labels s (suffix s)) (s : Scanner) :
    Outcome.Revises labels s (f.scan lead suffix s) := by
  rintro (_ | _) t h
  · obtain ⟨u, hu, rfl⟩ := sharesDraft_of_miss hf hlead h
    exact hu.revises_rewind
  · obtain ⟨u, found, hu, hseen, ht⟩ := exists_of_match h
    have hled := (f.revises_takeSign s).trans (hlead _ _ _ hu)
    have hcore := (revises_core hf hseen).setKind? hf.2.2
    exact hled.trans (hcore.trans (hsuffix _ _ _ ht))

end Numeral

/-! ### Quoted texts -/

namespace Quotation

variable {q : Quotation} {m : Move} {escapes : Scanner → Outcome}

theorem revises_passEscape (q : Quotation) (hm : m.IsForward) (s : Scanner) :
    s.Revises labels (q.passEscape m s) := by
  have hflag : s.Revises labels (m.apply s) := revises_apply hm s
  unfold passEscape
  dsimp only
  split
  · exact hflag
  · exact hflag.trans (revises_apply hm _)

theorem revises_recoverWithin (q : Quotation) (hm : m.IsForward) (bound : List Char)
    (s : Scanner) : s.Revises labels (q.recoverWithin m bound s) := by
  fun_induction recoverWithin q m bound s with
  | case1 | case2 | case3 => exact (Revises.refl _).reject _
  | case4 => exact revises_skip _
  | case5 _ bound s c _ _ _ _ ih => exact (q.revises_passEscape hm s).trans ih
  | case6 _ bound s c _ _ _ _ ih => exact (revises_apply hm s).trans ih

theorem revises_recover (q : Quotation) (hm : m.IsForward) (s : Scanner) :
    s.Revises labels (q.recover m s) :=
  q.revises_recoverWithin hm _ s

/-- The relation holds between the scanners before and after each step of a quoted text. -/
structure RelatesSteps (q : Quotation) (escapes : Scanner → Outcome)
    (R : Scanner → Scanner → Prop) : Prop where
  trans : ∀ {s t u}, R s t → R t u → R s u
  keep : ∀ s, R s s.keep
  skip : ∀ s, R s s.skip
  reject : ∀ s problem, R s (s.reject problem)
  recover : ∀ {m}, Move.IsForward m → ∀ s, R s (q.recover m s)
  escapes : ∀ s matched t, escapes s = .ok (matched, t) → R s t

namespace RelatesSteps

variable {R : Scanner → Scanner → Prop}

theorem unescape (hR : q.RelatesSteps escapes R) {flag : Char}
    (h : q.unescape escapes flag s = .ok t) : R s t := by
  unfold Quotation.unescape at h
  split at h
  · obtain rfl := Except.ok.inj h
    exact hR.keep s
  · obtain ⟨⟨decoded, u⟩, he, h⟩ := exists_of_bind_eq_ok h
    have hu := hR.escapes s decoded u he
    cases decoded with
    | true =>
      obtain rfl := Except.ok.inj h
      exact hu
    | false =>
      obtain rfl := Except.ok.inj h
      exact hR.trans hu (hR.reject u _)

/-- What holds for each step holds for the body of a quoted text. -/
theorem body (hR : q.RelatesSteps escapes R) {bound depth length : Nat}
    (h : q.body escapes bound depth length s = .ok t) : R s t := by
  induction bound generalizing depth length s with
  | zero => exact absurd h (by simp [Quotation.body])
  | succ bound ih =>
    rw [Quotation.body] at h
    split at h
    · obtain rfl := Except.ok.inj h
      exact hR.reject s _
    · split at h
      · obtain rfl := Except.ok.inj h
        exact hR.skip s
      · split at h
        · obtain rfl := Except.ok.inj h
          exact hR.reject s _
        · split at h
          · obtain rfl := Except.ok.inj h
            exact hR.trans (hR.reject s _) (hR.recover (.inr rfl) _)
          · split at h
            · obtain ⟨u, hu, h⟩ := exists_of_bind_eq_ok h
              have hescape := hR.trans (hR.skip s) (hR.unescape hu)
              split at h
              · obtain rfl := Except.ok.inj h
                exact hR.trans hescape (hR.recover (.inl rfl) u)
              · exact hR.trans hescape (ih h)
            · exact hR.trans (hR.keep s) (ih h)

end RelatesSteps

theorem relatesSteps_revises (hescapes : ∀ s, Outcome.Revises labels s (escapes s)) :
    q.RelatesSteps escapes (Revises labels) where
  trans := Revises.trans
  keep := revises_keep
  skip := revises_skip
  reject s := (Revises.refl s).reject
  recover := q.revises_recover
  escapes := hescapes

/-- A quoted text begins with its opening delimiter, and otherwise nothing is done. -/
theorem scan_cases (h : q.scan escapes s = .ok (matched, t)) :
    matched = false ∧ t = s ∨ matched = true ∧ s.current? = some q.opening ∧
      ∃ bound, q.body escapes bound 0 0 (s.skip.setKind q.kind) = .ok t := by
  unfold scan at h
  split at h
  · rename_i hopening
    obtain ⟨u, hbody, h⟩ := exists_of_bind_eq_ok h
    obtain ⟨rfl, rfl⟩ := Prod.mk.inj (Except.ok.inj h)
    exact .inr ⟨rfl, hopening, _, hbody⟩
  · obtain ⟨rfl, rfl⟩ := Prod.mk.inj (Except.ok.inj h)
    exact .inl ⟨rfl, rfl⟩

theorem revises_scan (hkind : labels q.kind)
    (hescapes : ∀ s, Outcome.Revises labels s (escapes s)) (s : Scanner) :
    Outcome.Revises labels s (q.scan escapes s) := by
  intro matched t h
  rcases scan_cases h with ⟨-, rfl⟩ | ⟨-, -, bound, hbody⟩
  · exact .refl t
  · exact ((revises_skip s).setKind hkind).trans ((relatesSteps_revises hescapes).body hbody)

end Quotation

end Lexing
