import Lexing.Proofs.Rule.Appearance
import Lexing.Proofs.Rule.Basic
import Lexing.Proofs.Scanner.Line

/-!
# Rules that stay on a line

A rule that never consumes a line feed, and that never asks for one, cannot tell the end of a line
from the end of the text. It makes the same of a text, whether or not more lines come after it. This
is so for literals, numbers and escapes without line feeds and for quoted texts that have to stay on
their line.

Loops take their bounds from the upcoming text, so the two runs of a loop have different bounds. It
is enough that each of them is as long as the text that the runs have in common.

## Main definitions

* `Scanner.PairInside` : the same answer, and scanners with the same text and draft.
* `Rule.StaysOnLine` : the rule makes the same of a text with and without more lines after it.
* `Numeral.LacksLineFeed`, `Quotation.LacksLineFeed` : what numbers and quoted texts need.

## Main results

* `Rule.staysOnLine_literal`, `Rule.staysOnLine_charEscape`, `Rule.staysOnLine_hexEscape`,
  `Rule.staysOnLine_number`, `Rule.staysOnLine_quotation`.
* `Rule.StaysOnLine.evalFirst` : the first rule that matches.
-/

namespace Lexing

open Scanner

/-- The flags are equal, and `rest` comes after the text of the second scanner. -/
def Scanner.PairInside (n : Nat) (rest : List Char) (p q : Bool × Scanner) : Prop :=
  q.1 = p.1 ∧ p.2.Inside n rest q.2

variable {n : Nat} {rest : List Char} {s t : Scanner}

namespace Scanner.Inside

/-- A code point that is no line feed is current in both texts or in none. -/
theorem current?_eq_some_iff (hrest : EndsLine rest) (h : s.Inside n rest t) {c : Char}
    (hc : c ≠ '\n') : t.current? = some c ↔ s.current? = some c := by
  constructor
  · intro ht
    cases hs : s.current? with
    | some d => rw [← ht, h.current?_eq hs]
    | none =>
      rcases h.current?_of_none hrest hs with hnone | hfeed
      · exact absurd (ht.symm.trans hnone) (Option.some_ne_none c)
      · exact absurd (Option.some.inj (ht.symm.trans hfeed)) hc
  · exact h.current?_eq

end Scanner.Inside

/-! ### Escapes -/

/-- Up to a number of upcoming digits are the same in both texts. -/
theorem Scanner.Inside.upcomingDigits_eq (hrest : EndsLine rest) (h : s.Inside n rest t)
    {k : CharClass} (hk : k.contains '\n' = false) (i : Nat) :
    t.upcomingDigits i k = s.upcomingDigits i k := by
  rw [upcomingDigits, upcomingDigits, h.upcoming]
  generalize s.upcoming.chars = text
  induction text generalizing i with
  | nil =>
    rcases hrest with rfl | hrest
    · rfl
    · obtain ⟨more, rfl⟩ := List.head?_eq_some_iff.mp hrest
      cases i with
      | zero => rfl
      | succ i => simp [hk]
  | cons c cs ih =>
    cases i with
    | zero => rfl
    | succ i => simp only [List.cons_append, List.take_succ_cons, List.takeWhile_cons, ih]

/-- The digits that are upcoming are in the text. -/
theorem Scanner.length_upcomingDigits_le (s : Scanner) (i : Nat) (k : CharClass) :
    (s.upcomingDigits i k).length ≤ s.upcoming.chars.length := by
  have hdigits := (List.takeWhile_prefix k.contains (l := s.upcoming.chars.take i)).length_le
  rw [List.length_take] at hdigits
  exact Nat.le_trans hdigits (Nat.min_le_right ..)

theorem HexEscape.inside_decodeDigits (e : HexEscape) (hrest : EndsLine rest)
    (h : s.Inside n rest t) : (e.decodeDigits s).Inside n rest (e.decodeDigits t) := by
  have hk : CharClass.hexDigit.contains '\n' = false := by decide
  rw [decodeDigits, decodeDigits, h.upcomingDigits_eq hrest hk]
  split
  · exact h.reject _ _
  · rename_i hwidth
    have hlength := s.length_upcomingDigits_le e.width .hexDigit
    have hdigits := h.times (.inr rfl) (i := e.width) (by omega)
    split
    · exact hdigits.pushByte _
    · split
      · exact hdigits.pushChar _
      · exact h.reject _ _

/-! ### Numbers -/

/-- No part of the number is a line feed. -/
structure Numeral.LacksLineFeed (f : Numeral) : Prop where
  digit : f.digit.contains '\n' = false
  sign : f.sign.contains '\n' = false
  separator : f.separator.contains '\n' = false
  point : f.point.contains '\n' = false
  exponent : f.exponent.contains '\n' = false
  exponentSign : f.exponentSign.contains '\n' = false

namespace Numeral

variable {f : Numeral}

theorem inside_takeSign (hf : f.LacksLineFeed) (hrest : EndsLine rest) (h : s.Inside n rest t) :
    (f.takeSign s).Inside n rest (f.takeSign t) := by
  rw [takeSign, takeSign, h.isIn_eq hrest hf.sign]
  split
  · rename_i hin
    obtain ⟨c, hc, -⟩ := exists_of_isIn hin
    exact h.keep hc
  · exact h

theorem inside_passLeadingSeparator (hf : f.LacksLineFeed) (hrest : EndsLine rest)
    (h : s.Inside n rest t) :
    (f.passLeadingSeparator s).Inside n rest (f.passLeadingSeparator t) := by
  rw [passLeadingSeparator, passLeadingSeparator, h.isIn_eq hrest hf.separator]
  by_cases hin : s.isIn f.separator = true
  · obtain ⟨c, hc, -⟩ := exists_of_isIn hin
    rw [h.followingIn_eq hrest hf.digit hc]
    split
    · exact h.skip hc
    · exact h
  · simpa [hin] using h

theorem separates_eq_of_inside (hf : f.LacksLineFeed) (hrest : EndsLine rest)
    (h : s.Inside n rest t) : f.separates t = f.separates s := by
  rw [separates, separates, h.isIn_eq hrest hf.separator]
  by_cases hin : s.isIn f.separator = true
  · obtain ⟨c, hc, -⟩ := exists_of_isIn hin
    have hlatest : t.peek? (-1) = s.peek? (-1) := congrArg (·.chars[0]?) h.chars
    rw [h.followingIn_eq hrest hf.digit hc, hlatest]
  · simp [hin]

theorem inside_digitsWithin (hf : f.LacksLineFeed) (hrest : EndsLine rest) {bound : List Char}
    (hbound : s.upcoming.chars = bound) (seen : Bool) (h : s.Inside n rest t) :
    PairInside n rest (f.digitsWithin bound seen s) (f.digitsWithin (bound ++ rest) seen t) := by
  have hseparates := separates_eq_of_inside hf hrest h
  induction bound generalizing seen s t with
  | nil =>
    have hnone : s.current? = none := by rw [Scanner.current?_eq, hbound, List.head?_nil]
    have hdigit : s.isIn f.digit = false := by rw [isIn, hnone]; rfl
    have hstop : f.separates s = false := by rw [separates, isIn, hnone]; rfl
    rw [digitsWithin, digitsWithin_of_stop ((h.isIn_eq hrest hf.digit).trans hdigit)
      (hseparates.trans hstop)]
    exact ⟨rfl, h⟩
  | cons c cs ih =>
    have hc : s.current? = some c := by rw [Scanner.current?_eq, hbound, List.head?_cons]
    have hup {m : Move} (hm : m.IsForward) : (m.apply s).upcoming.chars = cs := by
      rw [upcoming_apply hm, hbound, List.tail_cons]
    rw [List.cons_append, digitsWithin, digitsWithin, h.isIn_eq hrest hf.digit, hseparates]
    split
    · have hkeep := h.keep hc
      exact ih (hup (.inl rfl)) true hkeep (separates_eq_of_inside hf hrest hkeep)
    · split
      · have hskip := h.skip hc
        exact ih (hup (.inr rfl)) seen hskip (separates_eq_of_inside hf hrest hskip)
      · exact ⟨rfl, h⟩

theorem inside_digits (hf : f.LacksLineFeed) (hrest : EndsLine rest) (h : s.Inside n rest t) :
    PairInside n rest (f.digits s) (f.digits t) := by
  rw [digits, digits, h.upcoming]
  exact inside_digitsWithin hf hrest rfl false h

theorem inside_fraction (hf : f.LacksLineFeed) (hrest : EndsLine rest) (seen : Bool)
    (h : s.Inside n rest t) : PairInside n rest (f.fraction seen s) (f.fraction seen t) := by
  rw [fraction, fraction, h.isIn_eq hrest hf.point]
  by_cases hin : s.isIn f.point = true
  · obtain ⟨c, hc, -⟩ := exists_of_isIn hin
    rw [h.followingIn_eq hrest hf.digit hc]
    split
    · have hpoint := (h.setKind f.realKind).keep (c := c) hc
      obtain ⟨hmore, hdigits⟩ := inside_digits hf hrest hpoint
      exact ⟨congrArg (seen || ·) hmore, hdigits⟩
    · exact ⟨rfl, h⟩
  · simpa [hin] using ⟨rfl, h⟩

/-- An exponent is told from at most three code points, and the later ones are asked for only after
the earlier ones were found. -/
theorem exponentFollows_eq_of_inside (hf : f.LacksLineFeed) (hrest : EndsLine rest)
    (h : s.Inside n rest t) : f.exponentFollows t = f.exponentFollows s := by
  rw [exponentFollows, exponentFollows, h.isIn_eq hrest hf.exponent]
  by_cases hin : s.isIn f.exponent = true
  · obtain ⟨c, hc, -⟩ := exists_of_isIn hin
    rw [h.followingIn_eq hrest hf.digit hc, h.followingIn_eq hrest hf.exponentSign hc]
    by_cases hsign : s.followingIn f.exponentSign = true
    · obtain ⟨d, hd, -⟩ := (Option.any_eq_true _ _).mp hsign
      rw [following?_eq] at hd
      have hlength := (List.getElem?_eq_some_iff.mp hd).1
      have hpeek (u : Scanner) : u.peek? 2 = u.upcoming.chars[2]? := u.peek?_natCast 2
      rw [hpeek, hpeek, h.covers_getElem? hrest hf.digit hlength]
    · simp [hsign]
  · simp [hin]

theorem inside_exponentPart (hf : f.LacksLineFeed) (hrest : EndsLine rest)
    (h : s.Inside n rest t) : (f.exponentPart s).Inside n rest (f.exponentPart t) := by
  rw [exponentPart, exponentPart, exponentFollows_eq_of_inside hf hrest h]
  by_cases hfollows : f.exponentFollows s = true
  · obtain ⟨c, hc, -⟩ := exists_of_isIn (Bool.and_eq_true_iff.mp hfollows).1
    have hflag := (h.setKind f.realKind).keep (c := c) hc
    rw [if_pos hfollows, if_pos hfollows]
    dsimp only
    rw [hflag.isIn_eq hrest hf.exponentSign]
    refine (inside_digits hf hrest ?_).2
    split
    · rename_i hsign
      obtain ⟨d, hd, -⟩ := exists_of_isIn hsign
      exact hflag.keep hd
    · exact hflag
  · rw [if_neg hfollows, if_neg hfollows]
    exact h

theorem isLoneZero_eq_of_inside (hf : f.LacksLineFeed) (hrest : EndsLine rest)
    (h : s.Inside n rest t) : f.isLoneZero t = f.isLoneZero s := by
  by_cases hzero : s.current? = some '0'
  · rw [isLoneZero, isLoneZero, hzero, h.current?_eq hzero,
      h.followingIn_eq hrest hf.point hzero, h.followingIn_eq hrest hf.exponent hzero]
  · have hzero' : t.current? ≠ some '0' :=
      mt (h.current?_eq_some_iff hrest (by decide)).mp hzero
    simp only [isLoneZero, beq_eq_false_iff_ne.mpr hzero, beq_eq_false_iff_ne.mpr hzero',
      Bool.and_false, Bool.false_and]

theorem inside_body (hf : f.LacksLineFeed) (hrest : EndsLine rest) (h : s.Inside n rest t) :
    PairInside n rest (f.body s) (f.body t) := by
  rw [body, body, isLoneZero_eq_of_inside hf hrest h]
  split
  · rename_i hzero
    have hc : s.current? = some '0' := by
      simp only [isLoneZero, Bool.and_eq_true, beq_iff_eq] at hzero
      exact hzero.1.1.2
    exact ⟨rfl, h.keep hc⟩
  · obtain ⟨hwhole, hdigits⟩ := inside_digits hf hrest h
    obtain ⟨hseen, hfraction⟩ := inside_fraction hf hrest (f.digits s).1 hdigits
    dsimp only
    rw [hwhole, hseen]
    split
    · exact ⟨rfl, inside_exponentPart hf hrest hfraction⟩
    · exact ⟨rfl, hfraction⟩

/-- Numbers stay on their line if their leads and suffixes do. -/
theorem inside_scan (hf : f.LacksLineFeed) (hrest : EndsLine rest)
    {lead suffix : Scanner → Outcome}
    (hlead : ∀ s t, s.Inside n rest t → Corresponds (PairInside n rest) (lead s) (lead t))
    (hsuffix : ∀ s t, s.Inside n rest t → Corresponds (PairInside n rest) (suffix s) (suffix t))
    (h : s.Inside n rest t) :
    Corresponds (PairInside n rest) (f.scan lead suffix s) (f.scan lead suffix t) := by
  refine (hlead _ _ (inside_takeSign hf hrest h)).bind ?_
  rintro ⟨led, u⟩ ⟨_, v⟩ ⟨rfl, huv⟩
  have hpassed := inside_passLeadingSeparator hf hrest (huv.setKind f.integerKind)
  obtain ⟨hseen, hbody⟩ := inside_body hf hrest hpassed
  dsimp only
  rw [hseen]
  split
  · exact .ok ⟨rfl, huv.rewind⟩
  · split
    · exact .ok ⟨rfl, hbody.rewind⟩
    · refine (hsuffix _ _ (hbody.setKind? f.kind)).bind ?_
      rintro ⟨_, u'⟩ ⟨_, v'⟩ ⟨-, h'⟩
      exact .ok ⟨rfl, h'⟩

end Numeral

/-! ### Quoted texts -/

/-- The quoted text has to stay on its line, and no mark of it is a line feed. -/
structure Quotation.LacksLineFeed (q : Quotation) : Prop where
  multiline : q.multiline = false
  opening : q.opening ≠ '\n'
  closing : q.closing ≠ '\n'
  escape : q.escape ≠ some '\n'

namespace Quotation

variable {q : Quotation} {m : Move}

theorem endsLine_iff (hq : q.LacksLineFeed) {c : Char} : q.endsLine c = true ↔ c = '\n' := by
  simp [endsLine, hq.multiline]

theorem isEscape_eq_of_inside (hq : q.LacksLineFeed) (hrest : EndsLine rest)
    (h : s.Inside n rest t) : q.isEscape t.current? = q.isEscape s.current? := by
  cases hs : s.current? with
  | some c => rw [h.current?_eq hs]
  | none =>
    rcases h.current?_of_none hrest hs with ht | ht
    · rw [ht]
    · have hflag : (some '\n' == q.escape) = false := beq_eq_false_iff_ne.mpr hq.escape.symm
      rw [ht, isEscape, hflag]
      rfl

/-- Recovery ends where the line or the text does. -/
theorem recoverWithin_of_ended (hq : q.LacksLineFeed) (m : Move) (bound : List Char)
    (hs : s.current? = none ∨ s.current? = some '\n') :
    q.recoverWithin m bound s = s.reject .unterminatedString := by
  cases bound with
  | nil => rfl
  | cons =>
    rcases hs with hs | hs
    · simp only [recoverWithin, hs]
    · simp only [recoverWithin, hs, (endsLine_iff hq).mpr rfl, if_true]

theorem inside_passEscape (hq : q.LacksLineFeed) (hm : m.IsForward) (hrest : EndsLine rest)
    {c : Char} (hc : s.current? = some c) (h : s.Inside n rest t) :
    (q.passEscape m s).Inside n rest (q.passEscape m t) := by
  have hflag := h.apply hm hc
  rw [passEscape, passEscape]
  generalize m.apply s = u at hflag
  generalize m.apply t = v at hflag
  cases hu : u.current? with
  | some d =>
    rw [hflag.current?_eq hu]
    split
    · exact hflag
    · exact hflag.apply hm hu
  | none =>
    -- At the end of the line nothing is consumed, and there is nothing at the end of the text.
    have hstill {w : Scanner} (hw : w.current? = none) : m.apply w = w := by
      rcases hm with rfl | rfl
      · simp only [Move.apply, keep, hw]
      · simp only [Move.apply, skip, hw]
    rw [Option.any_none, if_neg Bool.false_ne_true, hstill hu]
    rcases hflag.current?_of_none hrest hu with hv | hv
    · rw [hv, Option.any_none, if_neg Bool.false_ne_true, hstill hv]
      exact hflag
    · rw [hv, Option.any_some, if_pos ((endsLine_iff hq).mpr rfl)]
      exact hflag

theorem length_passEscape_le (hm : m.IsForward) (s : Scanner) :
    (q.passEscape m s).upcoming.chars.length ≤ s.upcoming.chars.tail.length := by
  unfold passEscape
  dsimp only
  split
  · exact Nat.le_of_eq (by rw [upcoming_apply hm])
  · rw [upcoming_apply hm, upcoming_apply hm, List.length_tail]
    omega

theorem inside_recoverWithin (hq : q.LacksLineFeed) (hm : m.IsForward) (hrest : EndsLine rest)
    {bound : List Char} (hbound : s.upcoming.chars.length ≤ bound.length)
    (h : s.Inside n rest t) :
    (q.recoverWithin m bound s).Inside n rest (q.recoverWithin m (bound ++ rest) t) := by
  induction bound generalizing s t with
  | nil =>
    have hnone : s.current? = none := by
      rw [Scanner.current?_eq, List.head?_eq_none_iff]
      exact List.eq_nil_of_length_eq_zero (Nat.le_zero.mp hbound)
    rw [recoverWithin_of_ended hq m _ (h.current?_of_none hrest hnone)]
    exact h.reject _ _
  | cons b bs ih =>
    cases hs : s.current? with
    | none =>
      rw [recoverWithin_of_ended hq m _ (.inl hs),
        recoverWithin_of_ended hq m _ (h.current?_of_none hrest hs)]
      exact h.reject _ _
    | some c =>
      have hup := congrArg List.length (upcoming_of_current? hs)
      rw [List.length_cons] at hup hbound
      rw [List.cons_append, recoverWithin, recoverWithin, hs, h.current?_eq hs]
      dsimp only
      split
      · exact h.reject _ _
      · split
        · exact h.skip hs
        · split
          · refine ih ?_ (inside_passEscape hq hm hrest hs h)
            have hle := length_passEscape_le (q := q) hm s
            omega
          · refine ih ?_ (h.apply hm hs)
            rw [upcoming_apply hm]
            omega

theorem inside_recover (hq : q.LacksLineFeed) (hm : m.IsForward) (hrest : EndsLine rest)
    (h : s.Inside n rest t) : (q.recover m s).Inside n rest (q.recover m t) := by
  rw [recover, recover, h.upcoming]
  exact inside_recoverWithin hq hm hrest (Nat.le_refl _) h

section Escapes

variable {escapes : Scanner → Outcome}
  (hescapes : ∀ s t, s.Inside n rest t →
    Corresponds (PairInside n rest) (escapes s) (escapes t))

include hescapes

theorem inside_unescape (hq : q.LacksLineFeed) (hrest : EndsLine rest) (flag : Char)
    (h : s.Inside n rest t) :
    Corresponds (Inside n rest) (q.unescape escapes flag s) (q.unescape escapes flag t) := by
  have hclosing : t.current? = some q.closing ↔ s.current? = some q.closing :=
    h.current?_eq_some_iff hrest hq.closing
  rw [unescape, unescape, isEscape_eq_of_inside hq hrest h]
  simp only [hclosing]
  split
  · rename_i hplain
    obtain ⟨c, hc⟩ : ∃ c, s.current? = some c := by
      cases hs : s.current? with
      | some c => exact ⟨c, rfl⟩
      | none => simp [hs, isEscape] at hplain
    exact .ok (h.keep hc)
  · refine (hescapes _ _ h).bind ?_
    rintro ⟨_, u⟩ ⟨decoded, v⟩ ⟨rfl, huv⟩
    cases decoded with
    | true => exact .ok huv
    | false => exact .ok (huv.reject _ _)

/-- The bodies of quoted texts are consumed within bounds that exceed the upcoming texts. -/
theorem inside_body (hq : q.LacksLineFeed) (hrest : EndsLine rest) {labels : String → Prop}
    (hsteady : ∀ s, Outcome.Steady labels s (escapes s)) {bound bound' : Nat} (depth length : Nat)
    (hbound : s.upcoming.chars.length < bound)
    (hbound' : s.upcoming.chars.length < bound') (h : s.Inside n rest t) :
    Corresponds (Inside n rest) (q.body escapes bound depth length s)
      (q.body escapes bound' depth length t) := by
  induction bound generalizing bound' depth length s t with
  | zero => omega
  | succ bound ih =>
    obtain ⟨bound', rfl⟩ : ∃ k, bound' = k + 1 := Nat.exists_eq_add_one.mpr (by omega)
    cases hs : s.current? with
    | none =>
      have hended : q.body escapes (bound' + 1) depth length t =
          .ok (t.reject .unterminatedString) := by
        rw [body]
        rcases h.current?_of_none hrest hs with ht | ht
        · rw [ht]
        · simp only [ht, hq.closing.symm, false_and, if_false, (endsLine_iff hq).mpr rfl, if_true]
      rw [body, hs, hended]
      exact .ok (h.reject _ _)
    | some c =>
      have hup := congrArg List.length (upcoming_of_current? hs)
      rw [List.length_cons] at hup
      rw [body, body, hs, h.current?_eq hs]
      dsimp only
      split
      · exact .ok (h.skip hs)
      · split
        · exact .ok (h.reject _ _)
        · split
          · exact .ok (inside_recover hq (.inr rfl) hrest (h.reject _ _))
          · split
            · obtain ⟨w, u, hu, hw⟩ := exists_unescape hsteady q c s.skip
              have hescape := inside_unescape hescapes hq hrest c (h.skip hs)
              have hlength := ((assembles_skip hs).trans hw).consumes.length_le
              rw [List.length_append, List.length_singleton] at hlength
              rw [hu] at hescape ⊢
              generalize q.unescape escapes c t.skip = o at hescape ⊢
              cases hescape with
              | @ok _ v huv =>
                change Corresponds _ (if s.draft.diagnostics.size < u.draft.diagnostics.size then _
                  else _) (if t.draft.diagnostics.size < v.draft.diagnostics.size then _ else _)
                rw [h.problems, huv.problems]
                split
                · exact .ok (inside_recover hq (.inl rfl) hrest huv)
                · exact ih depth (length + 1) (by omega) (by omega) huv
            · have hlength : s.keep.upcoming.chars = s.upcoming.chars.tail :=
                upcoming_apply (.inl rfl) s
              exact ih (q.depthAfter depth c) (length + 1) (by rw [hlength]; omega)
                (by rw [hlength]; omega) (h.keep hs)

/-- Quoted texts stay on their line if their escapes do. -/
theorem inside_scan (hq : q.LacksLineFeed) (hrest : EndsLine rest) {labels : String → Prop}
    (hsteady : ∀ s, Outcome.Steady labels s (escapes s)) (h : s.Inside n rest t) :
    Corresponds (PairInside n rest) (q.scan escapes s) (q.scan escapes t) := by
  rw [scan, scan]
  by_cases hs : s.current? = some q.opening
  · have hopening := (h.skip hs).setKind q.kind
    have hbound := (s.skip.setKind q.kind).two_mul_length_lt_allowance
    have hbound' := (t.skip.setKind q.kind).two_mul_length_lt_allowance
    have hlength := congrArg List.length hopening.upcoming
    rw [List.length_append] at hlength
    rw [if_pos hs, if_pos (h.current?_eq hs)]
    refine (inside_body hescapes hq hrest hsteady 0 0 ?_ ?_ hopening).bind fun u v huv => ?_
    · omega
    · omega
    · exact .ok ⟨rfl, huv⟩
  · rw [if_neg hs, if_neg (mt (h.current?_eq_some_iff hrest hq.opening).mp hs)]
    exact .ok ⟨rfl, h⟩

end Escapes

end Quotation

/-! ### All rules -/

namespace Rule

variable {flags : Flags}

/-- The rule makes the same of a text, whether or not more lines come after it. -/
def StaysOnLine (flags : Flags) (r : Rule) : Prop :=
  ∀ n rest s t, EndsLine rest → s.Inside n rest t →
    Corresponds (PairInside n rest) (r.eval flags s) (r.eval flags t)

theorem inside_evalFirst {rules : List Rule} (h : ∀ r ∈ rules, r.StaysOnLine flags)
    (hrest : EndsLine rest) (hst : s.Inside n rest t) :
    Corresponds (PairInside n rest) (evalFirst flags rules s) (evalFirst flags rules t) := by
  induction rules generalizing s t with
  | nil => exact .ok ⟨rfl, hst⟩
  | cons r rs ih =>
    refine (h r List.mem_cons_self n rest s t hrest hst).bind ?_
    rintro ⟨_, u⟩ ⟨found, v⟩ ⟨rfl, huv⟩
    cases found with
    | true => exact .ok ⟨rfl, huv⟩
    | false => exact ih (fun r hr => h r (List.mem_cons_of_mem _ hr)) huv

theorem inside_evalLead {lead : Option Rule} (h : ∀ r ∈ lead, r.StaysOnLine flags)
    (hrest : EndsLine rest) (hst : s.Inside n rest t) :
    Corresponds (PairInside n rest) (evalLead flags lead s) (evalLead flags lead t) := by
  rcases lead with _ | r
  · exact .ok ⟨rfl, hst⟩
  · exact h r rfl n rest s t hrest hst

theorem staysOnLine_literal {r : LiteralRule} (h : ∀ w, r.words.contains w → '\n' ∉ w) :
    (literal r).StaysOnLine flags := by
  intro n rest s t hrest hst
  have hlongest : r.longest t = r.longest s := by
    rw [LiteralRule.longest, LiteralRule.longest, hst.upcoming, WordTree.longest_append h hrest]
  have hle : r.longest s ≤ s.upcoming.chars.length := r.words.longest_le_length _
  rw [eval_literal, eval_literal, LiteralRule.attempt, LiteralRule.attempt, hlongest]
  split
  · exact .ok ⟨rfl, hst⟩
  · exact .ok ⟨rfl, (hst.times (Move.isForward_ite r.skipped) hle).setKind? r.kind⟩

theorem staysOnLine_charEscape {e : CharEscape} (h : e.lookup? '\n' = none) :
    (charEscape e).StaysOnLine flags := by
  intro n rest s t hrest hst
  rw [eval_charEscape, eval_charEscape, CharEscape.attempt, CharEscape.attempt]
  cases hs : s.current? with
  | none =>
    have ht : t.current?.bind e.lookup? = none := by
      rcases hst.current?_of_none hrest hs with ht | ht
      · rw [ht, Option.bind_none]
      · rw [ht, Option.bind_some, h]
    rw [ht]
    exact .ok ⟨rfl, hst⟩
  | some c =>
    rw [hst.current?_eq hs, Option.bind_some]
    cases e.lookup? c with
    | none => exact .ok ⟨rfl, hst⟩
    | some d => exact .ok ⟨rfl, (hst.pushChar d).skip (c := c) hs⟩

theorem staysOnLine_hexEscape {e : HexEscape} (h : e.flag ≠ '\n') :
    (hexEscape e).StaysOnLine flags := by
  intro n rest s t hrest hst
  rw [eval_hexEscape, eval_hexEscape, HexEscape.attempt, HexEscape.attempt]
  by_cases hs : s.current? = some e.flag
  · rw [if_pos hs, if_pos (hst.current?_eq hs)]
    exact .ok ⟨rfl, e.inside_decodeDigits hrest (hst.skip hs)⟩
  · rw [if_neg hs, if_neg (mt (hst.current?_eq_some_iff hrest h).mp hs)]
    exact .ok ⟨rfl, hst⟩

theorem staysOnLine_number {f : Numeral} {lead : Option Rule} {suffixes : List Rule}
    (hf : f.LacksLineFeed) (hlead : ∀ r ∈ lead, r.StaysOnLine flags)
    (hsuffixes : ∀ r ∈ suffixes, r.StaysOnLine flags) :
    (number f lead suffixes).StaysOnLine flags := by
  intro n rest s t hrest hst
  rw [eval_number, eval_number]
  exact Numeral.inside_scan hf hrest (fun _ _ => inside_evalLead hlead hrest)
    (fun _ _ => inside_evalFirst hsuffixes hrest) hst

theorem staysOnLine_quotation {q : Quotation} {escapes : List Rule} (hq : q.LacksLineFeed)
    (hsteady : ∀ r ∈ escapes, r.IsSteady flags fun _ => True)
    (hescapes : ∀ r ∈ escapes, r.StaysOnLine flags) :
    (quotation q escapes).StaysOnLine flags := by
  intro n rest s t hrest hst
  rw [eval_quotation, eval_quotation]
  exact Quotation.inside_scan (fun _ _ => inside_evalFirst hescapes hrest) hq hrest
    (steady_evalFirst hsteady) hst

end Rule

end Lexing
