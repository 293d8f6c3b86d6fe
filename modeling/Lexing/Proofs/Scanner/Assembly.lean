import Lexing.Proofs.Scanner.Consumption

/-!
# How a rule assembles a token

A rule that matches does so in steps: it keeps or skips the current code point, adds to the value,
reports a problem or gives the draft a kind. `Scanner.Assembles labels s w t` says that such steps
lead from `s` to `t`, that they consume the text `w`, and that the kinds given are among `labels`.

Everything that holds of all rules follows by induction on the steps. A rule only has to be shown to
take no other steps.

## Main results

* `Scanner.Assembles.consumes` : the text is consumed within the draft.
* `Scanner.Assembles.kind_eq` : the kind is the old one, a given one or that of illegal tokens.
* `Scanner.assembles_times`, `Scanner.assembles_whileIn` : repeated moves.
-/

namespace Lexing.Scanner

/-- Steps that lead from `s` to `t`, consume the text `w` and give kinds among `labels`. -/
inductive Assembles (labels : String → Prop) (s : Scanner) : List Char → Scanner → Prop
  | refl : Assembles labels s [] s
  | move {w t m} (h : Assembles labels s w t) (hm : Move.IsForward m) :
      Assembles labels s (w ++ t.current?.toList) (m.apply t)
  | pushChar {w t} (h : Assembles labels s w t) (c : Char) : Assembles labels s w (t.pushChar c)
  | pushByte {w t} (h : Assembles labels s w t) (b : UInt8) : Assembles labels s w (t.pushByte b)
  | reject {w t} (h : Assembles labels s w t) (problem : Problem) :
      Assembles labels s w (t.reject problem)
  | setKind {w t kind} (h : Assembles labels s w t) (hk : labels kind) :
      Assembles labels s w (t.setKind kind)

namespace Assembles

variable {labels labels' : String → Prop} {s t u : Scanner} {v w : List Char}

theorem trans (h₁ : Assembles labels s v t) (h₂ : Assembles labels t w u) :
    Assembles labels s (v ++ w) u := by
  induction h₂ with
  | refl => simpa using h₁
  | move h hm ih => simpa using ih.move hm
  | pushChar h c ih => exact ih.pushChar c
  | pushByte h b ih => exact ih.pushByte b
  | reject h problem ih => exact ih.reject problem
  | setKind h hk ih => exact ih.setKind hk

theorem mono (h : Assembles labels s w t) (hl : ∀ kind, labels kind → labels' kind) :
    Assembles labels' s w t := by
  induction h with
  | refl => exact .refl
  | move h hm ih => exact ih.move hm
  | pushChar h c ih => exact ih.pushChar c
  | pushByte h b ih => exact ih.pushByte b
  | reject h problem ih => exact ih.reject problem
  | setKind h hk ih => exact ih.setKind (hl _ hk)

/-- The text is consumed within the draft. -/
theorem consumes (h : Assembles labels s w t) : s.Consumes w t := by
  induction h with
  | refl => exact .refl s
  | move h hm ih => exact ih.trans (consumes_apply hm _)
  | pushChar h c ih => exact ih.pushChar c
  | pushByte h b ih => exact ih.pushByte b
  | reject h problem ih => exact ih.reject problem
  | setKind h hk ih => exact ih.setKind _

theorem keep (h : Assembles labels s w t) : Assembles labels s (w ++ t.current?.toList) t.keep :=
  h.move (.inl rfl)

theorem skip (h : Assembles labels s w t) : Assembles labels s (w ++ t.current?.toList) t.skip :=
  h.move (.inr rfl)

theorem setKind? {kind : Option String} (h : Assembles labels s w t)
    (hk : ∀ k ∈ kind, labels k) : Assembles labels s w (t.setKind? kind) := by
  cases kind with
  | none => exact h
  | some k => exact h.setKind (hk k rfl)

end Assembles

variable {labels : String → Prop} {s t : Scanner} {m : Move}

@[simp] theorem kind_apply (hm : m.IsForward) (s : Scanner) :
    (m.apply s).draft.kind = s.draft.kind := by
  rcases hm with rfl | rfl
  · change s.keep.draft.kind = _
    unfold keep
    split <;> simp [pushLiteral, Draft.pushLiteral, pushChar, Draft.pushChar]
  · change s.skip.draft.kind = _
    unfold skip
    split <;> simp [pushLiteral, Draft.pushLiteral]

/-- The kind is the old one, one that was given, or that of illegal tokens. -/
theorem Assembles.kind_eq {w : List Char} (h : Assembles labels s w t) :
    t.draft.kind = s.draft.kind ∨ labels t.draft.kind ∨ t.draft.kind = Kind.illegal := by
  induction h with
  | refl => exact .inl rfl
  | move h hm ih => simpa [kind_apply hm] using ih
  | pushChar h c ih => exact ih
  | pushByte h b ih => exact ih
  | reject h problem ih => exact .inr (.inr rfl)
  | setKind h hk ih => exact .inr (.inl hk)

/-- A move consumes the current code point. -/
theorem assembles_apply {c : Char} (hm : m.IsForward) (h : s.current? = some c) :
    Assembles labels s [c] (m.apply s) := by
  have hmove : Assembles labels s ([] ++ s.current?.toList) (m.apply s) := .move .refl hm
  rwa [h] at hmove

theorem assembles_keep {c : Char} (h : s.current? = some c) : Assembles labels s [c] s.keep :=
  assembles_apply (.inl rfl) h

theorem assembles_skip {c : Char} (h : s.current? = some c) : Assembles labels s [c] s.skip :=
  assembles_apply (.inr rfl) h

/-! ### Repeated moves -/

/-- Repeating a move consumes as many code points, as far as there are so many. -/
theorem assembles_times (hm : m.IsForward) (n : Nat) (s : Scanner) :
    Assembles labels s (s.upcoming.chars.take n) (times n m s) := by
  induction n generalizing s with
  | zero => exact .refl
  | succ n ih =>
    have h := (Assembles.refl.move hm).trans (ih (m.apply s))
    rw [upcoming_apply hm, current?_eq] at h
    cases hup : s.upcoming.chars with
    | nil => simpa [hup, times] using h
    | cons c cs => simpa [hup, times] using h

/-- Repeating a move as long as a property holds consumes the longest run with the property. -/
theorem assembles_moveWhile (hm : m.IsForward) (p : Char → Bool) {bound : List Char} {s : Scanner}
    (hbound : s.upcoming.chars.length ≤ bound.length) :
    Assembles labels s (s.upcoming.chars.takeWhile p) (moveWhile p m bound s) := by
  induction bound generalizing s with
  | nil =>
    have hnil : s.upcoming.chars = [] := List.eq_nil_of_length_eq_zero (Nat.le_zero.mp hbound)
    rw [hnil]
    exact .refl
  | cons b bound ih =>
    unfold moveWhile
    rw [current?_eq]
    cases hup : s.upcoming.chars with
    | nil => exact .refl
    | cons c cs =>
      by_cases hp : p c = true
      · have hrest := ih (s := m.apply s) (by simpa [upcoming_apply hm, hup] using hbound)
        have h := (Assembles.refl.move hm).trans hrest
        rw [upcoming_apply hm, current?_eq] at h
        simpa [hup, hp] using h
      · have h : Assembles labels s [] s := .refl
        simpa [hp] using h

/-- Repeating a move as long as the current code point is in a class consumes the longest run of the
class. -/
theorem assembles_whileIn (hm : m.IsForward) (k : CharClass) (s : Scanner) :
    Assembles labels s (s.upcoming.chars.takeWhile k.contains) (s.whileIn k m) :=
  assembles_moveWhile hm _ (Nat.le_refl _)

/-! ### The state after repeated moves -/

theorem upcoming_times (hm : m.IsForward) (n : Nat) (s : Scanner) :
    (times n m s).upcoming.chars = s.upcoming.chars.drop n := by
  induction n generalizing s with
  | zero => rfl
  | succ n ih => rw [times, ih, upcoming_apply hm, List.drop_tail]

theorem value_keep (s : Scanner) :
    s.keep.draft.value = s.draft.value ++ Utf8.encode s.current?.toList := by
  unfold keep
  split <;> simp [*, pushLiteral, pushChar, Utf8.encode]

theorem value_skip (s : Scanner) : s.skip.draft.value = s.draft.value := by
  unfold skip
  split <;> simp [pushLiteral]

theorem value_times_keep (n : Nat) (s : Scanner) :
    (times n .keep s).draft.value = s.draft.value ++ Utf8.encode (s.upcoming.chars.take n) := by
  induction n generalizing s with
  | zero => simp [times, Utf8.encode]
  | succ n ih =>
    have hup : s.keep.upcoming.chars = s.upcoming.chars.tail := upcoming_apply (.inl rfl) s
    rw [times, Move.apply, ih, value_keep, hup, current?_eq]
    cases s.upcoming.chars <;> simp [Utf8.encode]

theorem value_times_skip (n : Nat) (s : Scanner) :
    (times n .skip s).draft.value = s.draft.value := by
  induction n generalizing s with
  | zero => rfl
  | succ n ih => rw [times, Move.apply, ih, value_skip]

theorem kind_times (hm : m.IsForward) (n : Nat) (s : Scanner) :
    (times n m s).draft.kind = s.draft.kind := by
  induction n generalizing s with
  | zero => rfl
  | succ n ih => rw [times, ih, kind_apply hm]

theorem kind_keepUnexpected (s : Scanner) : s.keepUnexpected.draft.kind = Kind.illegal :=
  kind_apply (.inl rfl) _

theorem kind_whileIn (hm : m.IsForward) (k : CharClass) (s : Scanner) :
    (s.whileIn k m).draft.kind = s.draft.kind := by
  have bounded (bound : List Char) (s : Scanner) :
      (moveWhile k.contains m bound s).draft.kind = s.draft.kind := by
    induction bound generalizing s with
    | nil => rfl
    | cons _ bound ih =>
      rw [moveWhile]
      split
      · rw [ih, kind_apply hm]
      · rfl
  exact bounded _ s

theorem kind_setKind? (s : Scanner) (kind : Option String) :
    (s.setKind? kind).draft.kind = kind.getD s.draft.kind := by
  cases kind <;> rfl

theorem value_setKind? (s : Scanner) (kind : Option String) :
    (s.setKind? kind).draft.value = s.draft.value := by
  cases kind <;> rfl

end Lexing.Scanner
