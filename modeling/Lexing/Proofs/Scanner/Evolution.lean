import Lexing.Proofs.Scanner.Passage

/-!
# What no rule can do to a failure

A failure of the byte source is behind the text until the last code point but one is left. Then it
is noticed, and it stays noticed until a token reports it. A rule consumes code points, changes the
draft and rewinds, in any order. None of this loses the failure, repeats it or brings another one
about, and where the text ends it was noticed.

## Main definitions

* `Scanner.Evolves` : a scanner after steps of a rule and rewinding.
* `Scanner.Awaits` : a failure is to be reported.

## Main results

* `Scanner.Evolves.invariant` : what every step preserves.
* `Scanner.Awaits.evolves`, `Scanner.Awaits.discard`, `Scanner.Awaits.emit` : the failure stays.
* `Scanner.awaits_ofStream`, `Scanner.Awaits.exists_failure` : the beginning and the end of a text.
-/

namespace Lexing.Scanner

variable {labels : String → Prop} {s t u : Scanner} {w : List Char} {m : Move} {cause : String}

/-! ### Steps -/

/-- Steps that assemble a token and rewinding lead from `s` to the scanner, in any order. -/
inductive Evolves (labels : String → Prop) (s : Scanner) : Scanner → Prop
  | refl : Evolves labels s s
  | assembles {t u : Scanner} {w : List Char} (h : Evolves labels s t)
      (ht : Assembles labels t w u) : Evolves labels s u
  | rewind {t : Scanner} (h : Evolves labels s t) : Evolves labels s t.rewind

theorem Assembles.evolves (h : Assembles labels s w t) : s.Evolves labels t :=
  .assembles .refl h

namespace Evolves

theorem trans (h₁ : s.Evolves labels t) (h₂ : t.Evolves labels u) : s.Evolves labels u := by
  induction h₂ with
  | refl => exact h₁
  | assembles _ hu ih => exact ih.assembles hu
  | rewind _ ih => exact ih.rewind

theorem move (hm : m.IsForward) (s : Scanner) : s.Evolves labels (m.apply s) :=
  (Assembles.refl.move hm).evolves

theorem reject (h : s.Evolves labels t) (problem : Problem) : s.Evolves labels (t.reject problem) :=
  h.assembles (Assembles.refl.reject problem)

theorem setKind {kind : String} (h : s.Evolves labels t) (hk : labels kind) :
    s.Evolves labels (t.setKind kind) :=
  h.assembles (Assembles.refl.setKind hk)

/-- A property holds after all steps if moving on, changing the draft and rewinding preserve it. -/
theorem invariant {P : Scanner → Prop} (h : s.Evolves labels t)
    (hmove : ∀ u m, Move.IsForward m → P u → P (m.apply u))
    (hdraft : ∀ u d, P u → P { u with draft := d }) (hrewind : ∀ u, P u → P u.rewind)
    (hs : P s) : P t := by
  induction h with
  | refl => exact hs
  | assembles _ hu ih =>
    induction hu with
    | refl => exact ih
    | move _ hm ih => exact hmove _ _ hm ih
    | pushChar _ c ih => exact hdraft _ _ ih
    | pushByte _ b ih => exact hdraft _ _ ih
    | reject _ problem ih => exact hdraft _ _ ih
    | setKind _ _ ih => exact hdraft _ _ ih
  | rewind _ ih => exact hrewind _ ih

end Evolves

/-! ### Failures -/

/-- A failure with the given cause is to be reported: it is behind the text, or it was noticed. -/
inductive Awaits (cause : String) (s : Scanner) : Prop
  | behind (hfailure : s.failure = none) (hending : s.window.ending = some cause)
  | noticed (position : Position) (hfailure : s.failure = some ⟨position, .unreadable, some cause⟩)
      (hending : s.window.ending = none)

namespace Awaits

/-- The failure is neither in the draft nor in the positions. -/
theorem congr (h : s.Awaits cause) (hfailure : t.failure = s.failure)
    (hending : t.window.ending = s.window.ending) : t.Awaits cause := by
  rcases h with ⟨hf, he⟩ | ⟨position, hf, he⟩
  · exact .behind (hfailure.trans hf) (hending.trans he)
  · exact .noticed position (hfailure.trans hf) (hending.trans he)

theorem advance (h : s.Awaits cause) (c : Char) : (s.advance c).Awaits cause := by
  have hshift := s.window.ending_shift
  rcases h with ⟨hf, he⟩ | ⟨position, hf, he⟩
  · rw [he] at hshift
    by_cases hlength : s.window.text.chars.length ≤ 2
    · rw [if_pos hlength] at hshift
      obtain ⟨hbehind, hcause⟩ := Prod.mk.inj hshift
      refine .noticed (s.position.advance c) ?_ (by rw [window_advance, hbehind])
      rw [failure_advance, hcause]
      rfl
    · rw [if_neg hlength] at hshift
      obtain ⟨hbehind, hcause⟩ := Prod.mk.inj hshift
      refine .behind ?_ (by rw [window_advance, hbehind])
      rw [failure_advance, hcause, hf]
      rfl
  · rw [he, ite_self] at hshift
    obtain ⟨hbehind, hcause⟩ := Prod.mk.inj hshift
    refine .noticed position ?_ (by rw [window_advance, hbehind])
    rw [failure_advance, hcause, hf]
    rfl

theorem apply (hm : m.IsForward) (h : s.Awaits cause) : (m.apply s).Awaits cause := by
  rcases hm with rfl | rfl
  · change s.keep.Awaits cause
    unfold keep
    split
    · rename_i c _
      exact (h.congr (t := (s.pushChar c).pushLiteral c) rfl rfl).advance c
    · exact h
  · change s.skip.Awaits cause
    unfold skip
    split
    · rename_i c _
      exact (h.congr (t := s.pushLiteral c) rfl rfl).advance c
    · exact h

/-- No rule loses the failure. -/
theorem evolves (h : s.Awaits cause) (ht : s.Evolves labels t) : t.Awaits cause := by
  refine ht.invariant (fun u m hm hu => hu.apply hm) (fun u d hu => hu.congr rfl rfl)
    (fun u hu => hu.congr rfl u.ending_rewind) h

theorem discard (h : s.Awaits cause) : s.discard.Awaits cause := by
  unfold Scanner.discard
  split
  · exact (h.advance _).congr rfl rfl
  · exact h.congr rfl rfl

theorem whileIn_discard (h : s.Awaits cause) (k : CharClass) :
    (s.whileIn k .discard).Awaits cause := by
  rw [whileIn]
  generalize s.upcoming.chars = bound
  induction bound generalizing s with
  | nil => exact h
  | cons c bound ih =>
    rw [moveWhile]
    split
    · exact ih h.discard
    · exact h

/-- A token with a literal does not report the failure. -/
theorem emit {token : Token} (h : s.Awaits cause) (hliteral : s.draft.literal ≠ [])
    (hemit : s.emit = .ok (token, t)) : t.Awaits cause := by
  rw [emit_of_literal_ne_nil hliteral] at hemit
  obtain ⟨-, rfl⟩ := Prod.mk.inj (Except.ok.inj hemit)
  rcases s.checkValue_eq with hs | ⟨problem, hs⟩
  · exact h.congr (by rw [hs]; rfl) (by rw [hs]; rfl)
  · exact h.congr (by rw [hs]; rfl) (by rw [hs]; rfl)

/-- At the end of the text the failure was noticed. -/
theorem exists_failure (h : s.Awaits cause) (hend : s.atEnd) :
    ∃ position, s.failure = some ⟨position, .unreadable, some cause⟩ := by
  have hnil : s.upcoming.chars = [] := by simpa [atEnd_eq] using hend
  have hnone := Window.ending_eq_none (w := s.window) (by
    rw [show s.window.text.chars = [] from hnil]
    exact Nat.zero_le 1)
  rcases h with ⟨-, he⟩ | ⟨position, hf, -⟩
  · rw [hnone] at he
    exact absurd he.symm (Option.some_ne_none cause)
  · exact ⟨position, hf⟩

end Awaits

/-- The scanner over a stream that fails awaits the failure. -/
theorem awaits_ofStream (name : String) {input : CharStream} (h : input.drain.2 = some cause) :
    (ofStream name input).Awaits cause := by
  have hend := Window.ending_ofStream_eq input
  rw [h] at hend
  unfold ofStream
  by_cases hlength : input.drain.1.length ≤ 1
  · rw [if_pos hlength] at hend
    obtain ⟨hbehind, hcause⟩ := Prod.mk.inj hend
    refine .noticed (.start name) ?_ ?_
    · dsimp only
      rw [hcause]
      rfl
    · dsimp only
      rw [window_notice]
      exact hbehind
  · rw [if_neg hlength] at hend
    obtain ⟨hbehind, hcause⟩ := Prod.mk.inj hend
    refine .behind ?_ ?_
    · dsimp only
      rw [hcause]
      rfl
    · dsimp only
      rw [window_notice]
      exact hbehind

end Lexing.Scanner
