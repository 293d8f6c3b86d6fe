import Lexing.Proofs.Lexicon.Run
import Mathlib.Data.List.TakeWhile

/-!
# A call for the next token, pass by pass

Where a lexicon has no rule between tokens, a call for the next token is a sequence of passes. A
pass discards code points. At the end of the text it emits an empty draft; otherwise it reads the
text of one token, which is the result unless it is blank. After a blank token the call goes on if
the position has moved. The bound on the passes does not matter, because each pass that does not end
the call consumes text.

## Main definitions

* `Scanner.renew` : the scanner after a token with a literal was emitted.
* `Lexicon.ifMoved` : the rest of a call after a blank token.
* `Lexicon.IsDirect` : every token that is scanned is handed out as it is.

## Main results

* `Lexicon.next_of_atEnd`, `Lexicon.Fits.next_of_read` : what a call is, in terms of the call after
  its first pass.
* `Lexicon.IsDirect.next_of_read` : a call that hands out the token of its first pass.
* `Lexicon.Fits.next_discard` : code points that are discarded do not matter.
-/

namespace Lexing

/-- The scanner after its draft, which has a literal, has become a token. -/
def Scanner.renew (s : Scanner) : Scanner :=
  { s.checkValue with stalls := 0 }.restart

open Scanner

/-- The draft that has become a token does not matter. -/
theorem Scanner.renew_eq (s : Scanner) :
    s.renew = { s with draft := {}, start := s.position, stalls := 0 } := by
  rcases s.checkValue_eq with hs | ⟨problem, hs⟩ <;> simp only [renew, restart, hs, reject]

theorem Scanner.previousKind_renew (s : Scanner) : s.renew.previousKind = s.previousKind := by
  rw [renew_eq]

/-- What was consumed from an empty draft on is passed over. -/
theorem Scanner.Consumes.passes_renew {s t : Scanner} {w : List Char} (h : s.Consumes w t)
    (hs : s.IsFresh) (hw : w ≠ []) :
    t.emit = .ok (t.checkValue.assembled, t.renew) ∧ s.Passes w t.renew := by
  have hliteral : t.draft.literal = w := by simpa [hs.1] using h.literal
  have hemit := emit_of_literal_ne_nil (hliteral ▸ hw)
  obtain ⟨u, hemit', hpass, -⟩ := h.exists_emit hs hw
  obtain ⟨-, rfl⟩ := Prod.mk.inj (Except.ok.inj (hemit.symm.trans hemit'))
  exact ⟨hemit, hpass⟩

namespace Lexicon

variable {x : Lexicon} {flags : Flags} {p : Profile} {s t : Scanner} {w : List Char}

theorem skipDiscards_eq (hdiscard : x.discardRule = none) (s : Scanner) :
    x.skipDiscards flags s = .ok (none, s.whileIn x.discards .discard) := by
  obtain ⟨n, hn⟩ : ∃ n, s.allowance = n + 1 :=
    Nat.exists_eq_add_one.mpr (Nat.lt_of_le_of_lt (Nat.zero_le _) s.two_mul_length_lt_allowance)
  rw [skipDiscards, hn, skipDiscardsWithin, hdiscard]
  rfl

/-- The token of a text that was read, after the hook. -/
theorem Fits.scanToken_of_read (hx : x.Fits flags p) (hs : s.IsFresh)
    (hread : x.read flags s = .ok t) (ht : s.Consumes w t) (hw : w ≠ []) :
    x.scanToken flags s = .ok (p.finish s.previousKind t.checkValue.assembled, t.renew) := by
  rw [hx.scanToken_eq, hread]
  change t.emit >>= _ = _
  rw [(ht.passes_renew hs hw).1, ← ht.previousKind, ← t.previousKind_renew]
  exact hx.afterToken ..

/-- The result of a call that goes on after a pass from `s` to `t`, whose token was blank. Where the
position has not moved, it is a fault. -/
def ifMoved (s t : Scanner) (result : Except Fault (Token × Scanner)) :
    Except Fault (Token × Scanner) :=
  if t.position = s.position then .error (.noProgress s.position) else result

theorem ifMoved_of_ne {result : Except Fault (Token × Scanner)} (h : t.position ≠ s.position) :
    ifMoved s t result = result :=
  if_neg h

/-- A call that gives a token has moved. -/
theorem ifMoved_eq_ok {result : Except Fault (Token × Scanner)} {out : Token × Scanner} :
    ifMoved s t result = .ok out ↔ t.position ≠ s.position ∧ result = .ok out := by
  unfold ifMoved
  split <;> simp [*]

theorem ifMoved_of_eq {result : Except Fault (Token × Scanner)} (h : t.position = s.position) :
    ifMoved s t result = .error (.noProgress s.position) :=
  if_pos h

/-- A run whose first call goes on after a pass is a run from there. -/
theorem Run.of_ifMoved {u : Scanner} {tokens : List Token} (h : x.Run flags s tokens)
    (hnext : x.next flags s = ifMoved u t (x.next flags t)) : x.Run flags t tokens := by
  by_cases hposition : t.position = u.position
  · rw [ifMoved_of_eq hposition] at hnext
    exact absurd h (not_run_of_next hnext)
  · rw [ifMoved_of_ne hposition] at hnext
    exact h.congr hnext.symm

/-- A pass at the end of the text emits the empty draft. -/
theorem nextWithin_of_atEnd (hdiscard : x.discardRule = none) (bound : Nat)
    (hend : (s.whileIn x.discards .discard).atEnd = true) :
    x.nextWithin flags (bound + 1) s = (s.whileIn x.discards .discard).emit := by
  rw [nextWithin, skipDiscards_eq hdiscard]
  exact if_pos hend

/-- A pass before the end of the text reads a token, which is the result unless it is blank. After a
blank token the passes go on. -/
theorem Fits.nextWithin_of_read (hx : x.Fits flags p) (hdiscard : x.discardRule = none)
    (bound : Nat) (hs : s.IsFresh) (hend : (s.whileIn x.discards .discard).atEnd = false)
    (hread : x.read flags (s.whileIn x.discards .discard) = .ok t) :
    x.nextWithin flags (bound + 1) s =
      if (p.finish s.previousKind t.checkValue.assembled).isBlank then
        ifMoved (s.whileIn x.discards .discard) t.renew (x.nextWithin flags bound t.renew)
      else .ok (accept (p.finish s.previousKind t.checkValue.assembled) t.renew) := by
  have hgap := passes_whileIn_discard x.discards hs
  rw [nextWithin, skipDiscards_eq hdiscard]
  generalize s.whileIn x.discards .discard = u at hend hread hgap
  obtain ⟨w, t', hread', hw, ht, -⟩ := hx.exists_read hgap.isFresh hend
  obtain rfl : t = t' := Except.ok.inj (hread.symm.trans hread')
  have hscan := hx.scanToken_of_read hgap.isFresh hread ht hw
  rw [hgap.previousKind] at hscan
  simp only [bind, Except.bind, hend, hscan]
  cases (p.finish s.previousKind t.checkValue.assembled).isBlank <;> rfl

/-- A bound on the passes that exceeds the upcoming text does not matter. -/
theorem Fits.nextWithin_congr (hx : x.Fits flags p) (hdiscard : x.discardRule = none) {m n : Nat}
    (hs : s.IsFresh) (hm : s.upcoming.chars.length < m) (hn : s.upcoming.chars.length < n) :
    x.nextWithin flags m s = x.nextWithin flags n s := by
  induction m generalizing n s with
  | zero => omega
  | succ m ih =>
    obtain ⟨n, rfl⟩ : ∃ k, n = k + 1 := Nat.exists_eq_add_one.mpr (by omega)
    have hgap := passes_whileIn_discard x.discards hs
    by_cases hend : (s.whileIn x.discards .discard).atEnd = true
    · rw [nextWithin_of_atEnd hdiscard m hend, nextWithin_of_atEnd hdiscard n hend]
    · rw [Bool.not_eq_true] at hend
      obtain ⟨w, t, hread, hw, ht, -⟩ := hx.exists_read hgap.isFresh hend
      obtain ⟨-, hpass⟩ := ht.passes_renew hgap.isFresh hw
      have hlt := hgap.length_lt hpass hw
      rw [hx.nextWithin_of_read hdiscard m hs hend hread,
        hx.nextWithin_of_read hdiscard n hs hend hread,
        ih hpass.isFresh (n := n) (by omega) (by omega)]

/-- At the end of the text a call emits an empty draft. -/
theorem next_of_atEnd (hdiscard : x.discardRule = none)
    (hend : (s.whileIn x.discards .discard).atEnd = true) :
    x.next flags s = (s.whileIn x.discards .discard).emit := by
  obtain ⟨n, hn⟩ : ∃ n, s.allowance = n + 1 :=
    Nat.exists_eq_add_one.mpr (Nat.lt_of_le_of_lt (Nat.zero_le _) s.two_mul_length_lt_allowance)
  rw [next, hn, nextWithin_of_atEnd hdiscard n hend]

/-- Before the end of the text a call reads a token, and goes on if it is blank. -/
theorem Fits.next_of_read (hx : x.Fits flags p) (hdiscard : x.discardRule = none)
    (hs : s.IsFresh) (hend : (s.whileIn x.discards .discard).atEnd = false)
    (hread : x.read flags (s.whileIn x.discards .discard) = .ok t) :
    x.next flags s =
      if (p.finish s.previousKind t.checkValue.assembled).isBlank then
        ifMoved (s.whileIn x.discards .discard) t.renew (x.next flags t.renew)
      else .ok (accept (p.finish s.previousKind t.checkValue.assembled) t.renew) := by
  have hgap := passes_whileIn_discard x.discards hs
  obtain ⟨w, t', hread', hw, ht, -⟩ := hx.exists_read hgap.isFresh hend
  obtain rfl : t = t' := Except.ok.inj (hread.symm.trans hread')
  obtain ⟨-, hpass⟩ := ht.passes_renew hgap.isFresh hw
  have hlt := hgap.length_lt hpass hw
  have hbound := s.two_mul_length_lt_allowance
  have hbound' := t.renew.two_mul_length_lt_allowance
  obtain ⟨n, hn⟩ : ∃ n, s.allowance = n + 1 := Nat.exists_eq_add_one.mpr (by omega)
  rw [next, hn, hx.nextWithin_of_read hdiscard n hs hend hread,
    hx.nextWithin_congr hdiscard hpass.isFresh (m := n) (n := t.renew.allowance) (by omega)
      (by omega)]
  rfl

/-! ### Discarding -/

/-- A code point that is discarded does not matter for the next token. -/
theorem Fits.next_discard (hx : x.Fits flags p) (hdiscard : x.discardRule = none) (hs : s.IsFresh)
    {c : Char} (hc : s.current? = some c) (hk : x.discards.contains c = true) :
    x.next flags s = x.next flags s.discard := by
  have hpass := passes_discard hc
  have hstep : s.whileIn x.discards .discard = s.discard.whileIn x.discards .discard := by
    rw [whileIn, whileIn, upcoming_discard hc, upcoming_of_current? hc, moveWhile, hc,
      Option.any_some, if_pos hk]
    rfl
  by_cases hend : (s.whileIn x.discards .discard).atEnd = true
  · rw [next_of_atEnd hdiscard hend, hstep, next_of_atEnd hdiscard (hstep ▸ hend)]
  · rw [Bool.not_eq_true] at hend
    have hfresh := (passes_whileIn_discard x.discards hs).isFresh
    obtain ⟨w, t, hread, -⟩ := hx.exists_read hfresh hend
    rw [hx.next_of_read hdiscard hs hend hread,
      hx.next_of_read hdiscard hpass.isFresh (hstep ▸ hend) (hstep ▸ hread), hpass.previousKind,
      hstep]

/-- Where everything is discarded, the end of the text is found. -/
theorem run_of_discarded (hdiscard : x.discardRule = none) (hs : s.IsFresh) (hclean : s.IsClean)
    (hall : ∀ c ∈ s.upcoming.chars, x.discards.contains c = true) : x.Run flags s [] := by
  have hgap := passes_whileIn_discard x.discards hs
  have hend : (s.whileIn x.discards .discard).atEnd = true := by
    have hup := hgap.upcoming
    rw [List.takeWhile_eq_self_iff.mpr hall] at hup
    rw [Scanner.atEnd_eq, List.self_eq_append_right.mp hup]
    rfl
  obtain ⟨token, t, hemit, hisEnd, -⟩ := emit_of_atEnd hgap.isFresh.1 (hgap.isClean hclean).1 hend
  exact .ended ((next_of_atEnd hdiscard hend).trans hemit) hisEnd

/-! ### Tokens that are handed out as they are -/

/-- No rule runs between tokens, and every token that is scanned is handed out as it is. -/
structure IsDirect (x : Lexicon) (flags : Flags) (p : Profile) : Prop where
  fits : x.Fits flags p
  discardRule : x.discardRule = none
  finish : ∀ previous token, p.finish previous token = token
  between : ∀ token w rest, ¬p.between token w rest
  isBlank : ∀ token w rest, p.scanned token w rest → token.isBlank = false
  isEnd : ∀ token w rest, p.scanned token w rest → token.isEnd = false

/-- Only single code points are dropped, so that no piece of a text is too long. -/
theorem IsDirect.dropsVisibly (hx : x.IsDirect flags p) (text : List Char) :
    x.DropsVisibly p text := by
  intro previous w rest hdrops _
  cases hdrops with
  | discard => exact (by decide : 1 < UInt32.size)
  | between h => exact absurd h (hx.between _ _ _)
  | scanned h hblank =>
    rw [hx.finish, hx.isBlank _ _ _ h] at hblank
    exact absurd hblank Bool.false_ne_true

/-- A call hands out the token of the text that is read after discarding. -/
theorem IsDirect.next_of_read (hx : x.IsDirect flags p) (hs : s.IsFresh)
    (hend : (s.whileIn x.discards .discard).atEnd = false)
    (hread : x.read flags (s.whileIn x.discards .discard) = .ok t) :
    x.next flags s = .ok (accept t.checkValue.assembled t.renew) ∧
      t.checkValue.assembled.isEnd = false ∧ ∃ w, w ≠ [] ∧ s.Passes w t.renew := by
  have hgap := passes_whileIn_discard x.discards hs
  obtain ⟨w, t', hread', hw, ht, hmade⟩ := hx.fits.exists_read hgap.isFresh hend
  obtain rfl : t = t' := Except.ok.inj (hread.symm.trans hread')
  obtain ⟨-, hpass⟩ := ht.passes_renew hgap.isFresh hw
  have hnext := hx.fits.next_of_read hx.discardRule hs hend hread
  rw [hx.finish, hx.isBlank _ _ _ hmade, if_neg Bool.false_ne_true] at hnext
  exact ⟨hnext, hx.isEnd _ _ _ hmade, _, List.append_ne_nil_of_right_ne_nil _ hw, hgap.trans hpass⟩

end Lexicon

end Lexing
