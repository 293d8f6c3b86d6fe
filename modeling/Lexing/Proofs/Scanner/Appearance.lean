import Lexing.Proofs.Scanner.Rewinding

/-!
# Scanners that look alike

Two scanners look alike if they show the same: the upcoming text, the positions, the draft and what
is remembered of earlier tokens. They may differ in how far the byte source was decoded and in
whether a failure behind the text was noticed. Nothing that a rule asks a scanner can tell them
apart, and what a rule does to both of them leaves them alike. If there is no failure, no sequence
of operations can tell them apart.

That rules treat scanners alike holds of other relations as well. A congruence relates scanners with
the same upcoming text, position and draft, and every operation by which rules act keeps it. Looking
alike is a congruence, and so is differing in nothing but the kind of the previous token.

## Main definitions

* `Scanner.Alike` : the scanners show the same.
* `Scanner.IsCongruence` : a relation that the operations of rules keep.

## Main results

* `Scanner.Alike.current?_eq`, `Scanner.Alike.reject`, `Scanner.Alike.rewind` : queries and
  operations.
* `Scanner.Alike.transcript_eq` : scanners without failures that look alike are interchangeable.
* `Scanner.IsCongruence.peek?_eq`, `Scanner.IsCongruence.times`, `Scanner.IsCongruence.whileIn` :
  what follows for every congruence.
* `Scanner.isCongruence_alike`, `Scanner.isCongruence_setPreviousKind` : the two congruences.
-/

namespace Lexing.Scanner

/-- The scanners show the same. -/
structure Alike (s t : Scanner) : Prop where
  upcoming : t.upcoming.chars = s.upcoming.chars
  position : t.position = s.position
  start : t.start = s.start
  draft : t.draft = s.draft
  previousKind : t.previousKind = s.previousKind
  stalls : t.stalls = s.stalls

theorem alike_iff_view {s t : Scanner} : s.Alike t ↔ t.view = s.view := by
  constructor
  · intro h
    simp only [view, h.upcoming, h.position, h.start, h.draft, h.previousKind, h.stalls]
  · intro h
    simp only [view, View.mk.injEq] at h
    obtain ⟨h₁, h₂, h₃, h₄, h₅, h₆⟩ := h
    exact ⟨h₁, h₂, h₃, h₄, h₅, h₆⟩

namespace Alike

variable {s t u : Scanner}

theorem refl (s : Scanner) : s.Alike s :=
  ⟨rfl, rfl, rfl, rfl, rfl, rfl⟩

theorem trans (h₁ : s.Alike t) (h₂ : t.Alike u) : s.Alike u :=
  alike_iff_view.mpr ((alike_iff_view.mp h₂).trans (alike_iff_view.mp h₁))

/-! ### Queries -/

theorem current?_eq (h : s.Alike t) : t.current? = s.current? := by
  rw [Scanner.current?_eq, Scanner.current?_eq, h.upcoming]

theorem valueText_eq (h : s.Alike t) : t.valueText = s.valueText := by
  rw [valueText, valueText, h.draft]

/-! ### Operations -/

/-- What changes only the draft leaves scanners alike. -/
theorem withDraft (h : s.Alike t) (f : Draft → Draft) :
    Alike { s with draft := f s.draft } { t with draft := f t.draft } :=
  { h with draft := congrArg f h.draft }

theorem setKind (h : s.Alike t) (kind : String) : (s.setKind kind).Alike (t.setKind kind) :=
  h.withDraft fun d => { d with kind }

theorem pushChar (h : s.Alike t) (c : Char) : (s.pushChar c).Alike (t.pushChar c) :=
  h.withDraft (·.pushChar c)

theorem pushByte (h : s.Alike t) (b : UInt8) : (s.pushByte b).Alike (t.pushByte b) :=
  h.withDraft (·.pushByte b)

theorem reject (h : s.Alike t) (problem : Problem) :
    (s.reject problem).Alike (t.reject problem) :=
  { h with draft := by simp only [Scanner.reject, h.draft, h.start] }

theorem advance (h : s.Alike t) (c : Char) : (s.advance c).Alike (t.advance c) where
  upcoming := by rw [upcoming_advance, upcoming_advance, h.upcoming]
  position := by rw [position_advance, position_advance, h.position]
  start := by rw [start_advance, start_advance, h.start]
  draft := by rw [draft_advance, draft_advance, h.draft]
  previousKind := by rw [previousKind_advance, previousKind_advance, h.previousKind]
  stalls := by rw [stalls_advance, stalls_advance, h.stalls]

theorem keep (h : s.Alike t) : s.keep.Alike t.keep := by
  rw [Scanner.keep, Scanner.keep, h.current?_eq]
  cases s.current? with
  | none => exact h
  | some c => exact (h.withDraft fun d => (d.pushChar c).pushLiteral c).advance c

theorem skip (h : s.Alike t) : s.skip.Alike t.skip := by
  rw [Scanner.skip, Scanner.skip, h.current?_eq]
  cases s.current? with
  | none => exact h
  | some c => exact (h.withDraft (·.pushLiteral c)).advance c

theorem restart (h : s.Alike t) : s.restart.Alike t.restart :=
  { h with start := h.position, draft := rfl }

theorem discard (h : s.Alike t) : s.discard.Alike t.discard := by
  rw [Scanner.discard, Scanner.discard, h.current?_eq]
  cases s.current? with
  | none => exact h.restart
  | some c => exact (h.advance c).restart

theorem checkValue (h : s.Alike t) : s.checkValue.Alike t.checkValue := by
  rw [Scanner.checkValue, Scanner.checkValue, h.draft, h.valueText_eq]
  split
  · exact h
  · exact h.reject _

theorem assembled_eq (h : s.Alike t) : t.assembled = s.assembled := by
  rw [assembled, assembled, h.valueText_eq, literalText, literalText, emittedKind, emittedKind,
    h.valueText_eq, h.draft, h.start]

/-- Rewinding shows what is known of the literal, the upcoming text and the beginning. -/
theorem rewind (h : s.Alike t) : s.rewind.Alike t.rewind where
  upcoming := by rw [upcoming_rewind, upcoming_rewind, h.draft, h.upcoming]
  position := h.start
  start := h.start
  draft := rfl
  previousKind := h.previousKind
  stalls := h.stalls

theorem whileIn_discard (k : CharClass) (h : s.Alike t) :
    (s.whileIn k .discard).Alike (t.whileIn k .discard) := by
  rw [Scanner.whileIn, Scanner.whileIn, h.upcoming]
  generalize s.upcoming.chars = bound
  induction bound generalizing s t with
  | nil => exact h
  | cons b bound ih =>
    rw [Scanner.moveWhile, Scanner.moveWhile, h.current?_eq]
    split
    · exact ih h.discard
    · exact h

/-! ### Interchangeable scanners -/

/-- Where the byte source does not fail, scanners that look alike cannot be told apart. -/
theorem transcript_eq (h : s.Alike t) (hs : s.IsClean) (ht : t.IsClean) (os : List Operation) :
    t.transcript os = s.transcript os := by
  have hequivalent : s.Equivalent t :=
    .of_view (alike_iff_view.mp h) (ht.1.trans hs.1.symm) (ht.2.trans hs.2.symm)
  exact hequivalent.transcript_eq os

end Alike

/-! ### Congruences -/

/-- The relation holds only between scanners with the same upcoming text, position and draft, and
every operation by which rules act keeps it. -/
structure IsCongruence (R : Scanner → Scanner → Prop) : Prop where
  upcoming : ∀ {s t}, R s t → t.upcoming.chars = s.upcoming.chars
  position : ∀ {s t}, R s t → t.position = s.position
  draft : ∀ {s t}, R s t → t.draft = s.draft
  setKind : ∀ {s t}, R s t → ∀ kind, R (s.setKind kind) (t.setKind kind)
  pushChar : ∀ {s t}, R s t → ∀ c, R (s.pushChar c) (t.pushChar c)
  pushByte : ∀ {s t}, R s t → ∀ b, R (s.pushByte b) (t.pushByte b)
  reject : ∀ {s t}, R s t → ∀ problem, R (s.reject problem) (t.reject problem)
  keep : ∀ {s t}, R s t → R s.keep t.keep
  skip : ∀ {s t}, R s t → R s.skip t.skip
  rewind : ∀ {s t}, R s t → R s.rewind t.rewind

namespace IsCongruence

variable {R : Scanner → Scanner → Prop} {s t : Scanner} {m : Move} (hR : IsCongruence R)

include hR

theorem current?_eq (h : R s t) : t.current? = s.current? := by
  rw [Scanner.current?_eq, Scanner.current?_eq, hR.upcoming h]

theorem peek?_eq (h : R s t) (i : Int) : t.peek? i = s.peek? i := by
  cases i with
  | ofNat n => exact (peek?_natCast t n).trans ((hR.upcoming h ▸ (peek?_natCast s n).symm))
  | negSucc n => rw [peek?_negSucc, peek?_negSucc, hR.draft h]

theorem isIn_eq (h : R s t) (k : CharClass) : t.isIn k = s.isIn k :=
  congrArg k.covers (hR.current?_eq h)

theorem following?_eq (h : R s t) : t.following? = s.following? := by
  rw [Scanner.following?_eq, Scanner.following?_eq, hR.upcoming h]

theorem followingIn_eq (h : R s t) (k : CharClass) : t.followingIn k = s.followingIn k :=
  congrArg k.covers (hR.following?_eq h)

theorem valueText_eq (h : R s t) : t.valueText = s.valueText := by
  rw [valueText, valueText, hR.draft h]

theorem allowance_eq (h : R s t) : t.allowance = s.allowance := by
  rw [allowance, allowance, hR.draft h, Stretch.ext (hR.upcoming h)]

theorem atEnd_eq (h : R s t) : t.atEnd = s.atEnd :=
  congrArg Option.isNone (hR.current?_eq h)

theorem setKind? (h : R s t) (kind : Option String) : R (s.setKind? kind) (t.setKind? kind) := by
  cases kind with
  | none => exact h
  | some kind => exact hR.setKind h kind

theorem keepUnexpected (h : R s t) : R s.keepUnexpected t.keepUnexpected := by
  rw [Scanner.keepUnexpected, Scanner.keepUnexpected, hR.current?_eq h]
  exact hR.keep (hR.reject h _)

theorem apply (h : R s t) (hm : m.IsForward) : R (m.apply s) (m.apply t) := by
  rcases hm with rfl | rfl
  · exact hR.keep h
  · exact hR.skip h

theorem times (h : R s t) (hm : m.IsForward) (n : Nat) : R (s.times n m) (t.times n m) := by
  induction n generalizing s t with
  | zero => exact h
  | succ n ih => exact ih (hR.apply h hm)

theorem moveWhile (h : R s t) (hm : m.IsForward) (p : Char → Bool) (bound : List Char) :
    R (moveWhile p m bound s) (moveWhile p m bound t) := by
  induction bound generalizing s t with
  | nil => exact h
  | cons b bound ih =>
    rw [Scanner.moveWhile, Scanner.moveWhile, hR.current?_eq h]
    by_cases hp : s.current?.any p = true
    · rw [if_pos hp, if_pos hp]
      exact ih (hR.apply h hm)
    · rw [if_neg hp, if_neg hp]
      exact h

theorem whileIn (h : R s t) (hm : m.IsForward) (k : CharClass) :
    R (s.whileIn k m) (t.whileIn k m) := by
  rw [Scanner.whileIn, Scanner.whileIn, hR.upcoming h]
  exact hR.moveWhile h hm k.contains _

end IsCongruence

theorem isCongruence_alike : IsCongruence Alike where
  upcoming := Alike.upcoming
  position := Alike.position
  draft := Alike.draft
  setKind := Alike.setKind
  pushChar := Alike.pushChar
  pushByte := Alike.pushByte
  reject := Alike.reject
  keep := Alike.keep
  skip := Alike.skip
  rewind := Alike.rewind

theorem Alike.following?_eq {s t : Scanner} (h : s.Alike t) : t.following? = s.following? :=
  isCongruence_alike.following?_eq h

theorem Alike.peek?_eq {s t : Scanner} (h : s.Alike t) (i : Int) : t.peek? i = s.peek? i :=
  isCongruence_alike.peek?_eq h i

/-! ### The kind of the previous token -/

theorem setPreviousKind_advance (s : Scanner) (kind : String) (c : Char) :
    (s.advance c).setPreviousKind kind = (s.setPreviousKind kind).advance c := by
  simp only [advance, setPreviousKind]
  cases s.window.shift.2 <;> rfl

theorem setPreviousKind_keep (s : Scanner) (kind : String) :
    s.keep.setPreviousKind kind = (s.setPreviousKind kind).keep := by
  rw [keep, keep, show (s.setPreviousKind kind).current? = s.current? from rfl]
  cases s.current? with
  | none => rfl
  | some c => exact setPreviousKind_advance _ kind c

theorem setPreviousKind_skip (s : Scanner) (kind : String) :
    s.skip.setPreviousKind kind = (s.setPreviousKind kind).skip := by
  rw [skip, skip, show (s.setPreviousKind kind).current? = s.current? from rfl]
  cases s.current? with
  | none => rfl
  | some c => exact setPreviousKind_advance _ kind c

/-- Recording another kind of the previous token makes no difference to rules. -/
theorem isCongruence_setPreviousKind (kind : String) :
    IsCongruence fun s t => t = s.setPreviousKind kind where
  upcoming := by rintro s _ rfl; rfl
  position := by rintro s _ rfl; rfl
  draft := by rintro s _ rfl; rfl
  setKind := by rintro s _ rfl _; rfl
  pushChar := by rintro s _ rfl _; rfl
  pushByte := by rintro s _ rfl _; rfl
  reject := by rintro s _ rfl _; rfl
  keep := by rintro s _ rfl; exact (setPreviousKind_keep s kind).symm
  skip := by rintro s _ rfl; exact (setPreviousKind_skip s kind).symm
  rewind := by rintro s _ rfl; rfl

end Lexing.Scanner
