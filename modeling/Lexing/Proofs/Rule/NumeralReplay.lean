import Lexing.Proofs.Rule.Replay

/-!
# Numbers that replay

A number is cut out of a text after looking at up to three code points: a separator needs a digit
after it, a fraction may need one, and an exponent needs one after its sign. Each of these code points
is then consumed, so the number is found again where a blank or the end of the text comes next. A zero
that stands for itself is the exception: it may have been read as digits before a point or an exponent
that was not part of the number.

The other way round, what begins a number in the replay begins one in the scan, so a number that is
not found in the scan is not found in the replay.

## Main definitions

* `Numeral.LacksBlank` : no part of the number is a blank.
* `Scanner.IsPersistent` : what is found in a replay is found in the scan.

## Main results

* `Numeral.shadows_core` : digits, fraction and exponent.
* `Numeral.seen_core_imp` : a number that is found in the replay is found in the scan.
* `Rule.replays_number`.
-/

namespace Lexing

open Scanner

variable {v w rest rest' : List Char} {s t u : Scanner}

theorem Scanner.isIn_apply {m : Move} (hm : m.IsForward) (s : Scanner) (k : CharClass) :
    (m.apply s).isIn k = s.followingIn k := by
  rw [isIn, followingIn, Scanner.current?_eq, upcoming_apply hm, following?_eq,
    List.head?_eq_getElem?, List.getElem?_tail]

/-- No part of the number is a blank, and a zero is a digit where it matters. -/
@[mk_iff]
structure Numeral.LacksBlank (f : Numeral) : Prop where
  digit : f.digit.contains ' ' = false
  sign : f.sign.contains ' ' = false
  separator : f.separator.contains ' ' = false
  point : f.point.contains ' ' = false
  exponent : f.exponent.contains ' ' = false
  exponentSign : f.exponentSign.contains ' ' = false
  zero : f.leadingZero = false → f.digit.contains '0' = true

namespace Numeral

variable {f : Numeral}

instance (f : Numeral) : Decidable f.LacksBlank :=
  decidable_of_iff' _ (lacksBlank_iff f)

/-! ### Digits -/

/-- Digits are consumed one by one, whatever the bound is. -/
theorem digitsWithin_eq (f : Numeral) (seen : Bool) (s : Scanner) :
    f.digitsWithin s.upcoming.chars seen s =
      if s.isIn f.digit then f.digitsWithin s.keep.upcoming.chars true s.keep
      else if f.separates s then f.digitsWithin s.skip.upcoming.chars seen s.skip
      else (seen, s) := by
  cases hc : s.current? with
  | none =>
    have hdigit : s.isIn f.digit = false := by rw [isIn, hc]; rfl
    have hseparates : f.separates s = false := by rw [separates, isIn, hc]; rfl
    rw [digitsWithin_of_stop hdigit hseparates, hdigit, hseparates]
    rfl
  | some c =>
    have hkeep : s.keep.upcoming.chars = s.upcoming.chars.tail := upcoming_apply (.inl rfl) s
    have hskip : s.skip.upcoming.chars = s.upcoming.chars.tail := upcoming_apply (.inr rfl) s
    rw [hkeep, hskip, upcoming_of_current? hc]
    rfl

theorem consumes_digitsWithin (f : Numeral) (bound : List Char) (seen : Bool) (s : Scanner) :
    ∃ x, s.Consumes x (f.digitsWithin bound seen s).2 := by
  obtain ⟨x, hx, -⟩ : Reads (fun _ => True) seen s (f.digitsWithin bound seen s) :=
    reads_digitsWithin bound seen s
  exact ⟨x, hx.consumes⟩

theorem seen_digitsWithin (f : Numeral) (bound : List Char) (s : Scanner) :
    (f.digitsWithin bound true s).1 = true := by
  induction bound generalizing s with
  | nil => rfl
  | cons _ bound ih =>
    rw [digitsWithin]
    split
    · exact ih s.keep
    · split
      · exact ih s.skip
      · rfl

/-- A digit is consumed. -/
theorem consumes_of_isIn (hin : s.isIn f.digit = true) (seen : Bool) :
    ∃ c x, s.current? = some c ∧
      s.keep.Consumes x (f.digitsWithin s.upcoming.chars seen s).2 := by
  obtain ⟨c, hc, -⟩ := exists_of_isIn hin
  rw [digitsWithin_eq, if_pos hin]
  obtain ⟨x, hx⟩ := f.consumes_digitsWithin s.keep.upcoming.chars true s.keep
  exact ⟨c, x, hc, hx⟩

theorem isIn_of_separates (h : f.separates s = true) :
    s.isIn f.separator = true ∧ s.skip.isIn f.digit = true := by
  rw [separates, Bool.and_eq_true, Bool.and_eq_true] at h
  exact ⟨h.1.1, (isIn_apply (.inr rfl) s f.digit).trans h.1.2⟩

/-- Digits begin with a digit or with a separator between digits. -/
theorem seen_digits_iff : (f.digits s).1 = true ↔ s.isIn f.digit = true ∨ f.separates s = true := by
  rw [digits, digitsWithin_eq]
  split
  · rename_i hin
    simp [hin, seen_digitsWithin]
  · rename_i hnot
    split
    · rename_i hseparates
      rw [digitsWithin_eq, if_pos (isIn_of_separates hseparates).2]
      simp [hseparates, seen_digitsWithin]
    · rename_i hseparates
      simp [hnot, hseparates]

/-- Nothing is consumed where no digit is seen. -/
theorem digits_of_not_seen (h : ¬(f.digits s).1 = true) : f.digits s = (false, s) := by
  rw [seen_digits_iff, not_or] at h
  exact digitsWithin_of_stop (Bool.eq_false_iff.mpr h.1) (Bool.eq_false_iff.mpr h.2) _ false

theorem separates_imp (hf : f.LacksBlank) (hrest : IsParted rest') (h : s.Shadows v rest rest' t)
    (ht : f.separates t = true) : f.separates s = true := by
  rw [separates, Bool.and_eq_true, Bool.and_eq_true] at ht ⊢
  obtain ⟨⟨hin, hfollowing⟩, hlatest⟩ := ht
  have hv := h.ne_nil_of_isIn hrest hf.separator hin
  have hlatest' : s.peek? (-1) = t.peek? (-1) := congrArg (·.latestChars.chars[0]?) h.draft.symm
  exact ⟨⟨h.isIn_imp hrest hf.separator hin, h.followingIn_imp hrest hf.digit hv hfollowing⟩,
    hlatest' ▸ hlatest⟩

/-- Digits that are seen in the replay are seen in the scan. -/
theorem seen_digits_imp (hf : f.LacksBlank) (hrest : IsParted rest') (h : s.Shadows v rest rest' t)
    (ht : (f.digits t).1 = true) : (f.digits s).1 = true :=
  seen_digits_iff.mpr ((seen_digits_iff.mp ht).imp (h.isIn_imp hrest hf.digit)
    (separates_imp hf hrest h))

/-- The flags are equal, and the scanners have come equally far. -/
def PairShadows (w rest rest' : List Char) (p q : Bool × Scanner) : Prop :=
  q.1 = p.1 ∧ p.2.Shadows w rest rest' q.2

theorem separates_eq_of_shadows (hf : f.LacksBlank) (hrest : IsParted rest')
    (h : s.Shadows v rest rest' t) (hlength : f.separates s = true → 1 < v.length) :
    f.separates t = f.separates s := by
  by_cases hs : f.separates s = true
  · have hlt := hlength hs
    have hv : v ≠ [] := List.length_pos_iff.mp (by omega)
    have hlatest : t.peek? (-1) = s.peek? (-1) := congrArg (·.latestChars.chars[0]?) h.draft
    rw [separates, separates, h.isIn_eq hrest hf.separator fun _ => hv,
      h.followingIn_eq hrest hf.digit hv fun _ => hlt, hlatest]
  · rw [Bool.eq_false_iff.mpr hs]
    exact Bool.eq_false_iff.mpr (mt (separates_imp hf hrest h) hs)

/-- Digits that stay in the common text begin there. -/
theorem ne_nil_of_isIn_digit {seen : Bool} (h : s.Shadows v rest rest' t)
    (hstay : (f.digitsWithin s.upcoming.chars seen s).2.upcoming.chars = w ++ rest)
    (hin : s.isIn f.digit = true) : v ≠ [] := by
  obtain ⟨c, x, hc, hx⟩ := consumes_of_isIn hin seen
  simp [h.eq_cons (.inl rfl) hc hx hstay]

/-- A separator that stays in the common text has its digit there. -/
theorem one_lt_of_separates {seen : Bool} (h : s.Shadows v rest rest' t)
    (hstay : (f.digitsWithin s.upcoming.chars seen s).2.upcoming.chars = w ++ rest)
    (hout : ¬s.isIn f.digit = true) (hseparates : f.separates s = true) : 1 < v.length := by
  obtain ⟨hin, hnext⟩ := isIn_of_separates hseparates
  obtain ⟨c, hc, -⟩ := exists_of_isIn hin
  obtain ⟨d, x, hd, hx⟩ := consumes_of_isIn hnext seen
  rw [digitsWithin_eq, if_neg hout, if_pos hseparates] at hstay
  simp [h.eq_cons (.inr rfl) hc ((consumes_of_apply (.inl rfl) hd).trans hx) hstay]

/-- Each code point is a digit or a separator in both scans, or in none. -/
theorem shadows_digitsWithin (hf : f.LacksBlank) (hrest : IsParted rest') (seen : Bool)
    (h : s.Shadows v rest rest' t)
    (hstay : (f.digitsWithin s.upcoming.chars seen s).2.upcoming.chars = w ++ rest) :
    PairShadows w rest rest' (f.digitsWithin s.upcoming.chars seen s)
      (f.digitsWithin t.upcoming.chars seen t) := by
  induction v generalizing s t seen with
  | nil =>
    have hout : ¬s.isIn f.digit = true := fun hin => ne_nil_of_isIn_digit h hstay hin rfl
    have hnone : ¬f.separates s = true := fun hseparates =>
      absurd (one_lt_of_separates h hstay hout hseparates) (by simp)
    have hout' := mt (h.isIn_imp hrest hf.digit) hout
    have hnone' := mt (separates_imp hf hrest h) hnone
    rw [digitsWithin_eq, if_neg hout, if_neg hnone] at hstay ⊢
    rw [digitsWithin_eq, if_neg hout', if_neg hnone']
    obtain rfl : [] = w := List.append_cancel_right (h.upcoming.symm.trans hstay)
    exact ⟨rfl, h⟩
  | cons c v ih =>
    have hdigit := h.isIn_eq hrest hf.digit fun _ => List.cons_ne_nil c v
    have hseparates (hout : ¬s.isIn f.digit = true) :=
      separates_eq_of_shadows hf hrest h (one_lt_of_separates h hstay hout)
    rw [digitsWithin_eq] at hstay ⊢
    rw [f.digitsWithin_eq seen t, hdigit]
    by_cases hin : s.isIn f.digit = true
    · rw [if_pos hin] at hstay ⊢
      rw [if_pos hin]
      exact ih true h.keep hstay
    · rw [if_neg hin] at hstay ⊢
      rw [if_neg hin, hseparates hin]
      split
      · rename_i hsep
        rw [if_pos hsep] at hstay
        exact ih seen h.skip hstay
      · rename_i hsep
        rw [if_neg hsep] at hstay
        obtain rfl := List.append_cancel_right (h.upcoming.symm.trans hstay)
        exact ⟨rfl, h⟩

theorem shadows_digits (hf : f.LacksBlank) (hrest : IsParted rest') (h : s.Shadows v rest rest' t)
    (hstay : (f.digits s).2.upcoming.chars = w ++ rest) :
    PairShadows w rest rest' (f.digits s) (f.digits t) :=
  shadows_digitsWithin hf hrest false h hstay

/-! ### Fraction and exponent -/

/-- A digit that comes next and is consumed afterwards is in the common text. -/
theorem one_lt_of_followingIn {m : Move} (hm : m.IsForward) {c : Char}
    (h : s.Shadows (c :: v) rest rest' t)
    (hstay : (f.digits (m.apply s)).2.upcoming.chars = w ++ rest)
    (hin : s.followingIn f.digit = true) : 1 < (c :: v).length := by
  have hne := ne_nil_of_isIn_digit (h.apply hm) hstay ((isIn_apply hm s f.digit).trans hin)
  rw [List.length_cons]
  exact Nat.succ_lt_succ (List.length_pos_iff.mpr hne)

theorem shadows_fraction (hf : f.LacksBlank) (hrest : IsParted rest') (seen : Bool)
    (h : s.Shadows v rest rest' t) (hstay : (f.fraction seen s).2.upcoming.chars = w ++ rest) :
    PairShadows w rest rest' (f.fraction seen s) (f.fraction seen t) := by
  rw [fraction] at hstay ⊢
  rw [fraction]
  split at hstay
  · rename_i hbegins
    have hlabelled := h.setKind f.realKind
    obtain ⟨c, hc, -⟩ := exists_of_isIn (Bool.and_eq_true_iff.mp hbegins).1
    change (f.digits (Move.keep.apply (s.setKind f.realKind))).2.upcoming.chars = _ at hstay
    obtain ⟨x, hx⟩ := f.consumes_digitsWithin _ false (Move.keep.apply (s.setKind f.realKind))
    obtain rfl := hlabelled.eq_cons (.inl rfl) hc hx hstay
    have hne := List.cons_ne_nil c (x ++ w)
    have hfollowing := hlabelled.followingIn_eq hrest hf.digit hne
      (one_lt_of_followingIn (.inl rfl) hlabelled hstay)
    rw [h.isIn_eq hrest hf.point fun _ => hne,
      show t.followingIn f.digit = s.followingIn f.digit from hfollowing, if_pos hbegins,
      if_pos hbegins]
    obtain ⟨hseen, hdigits⟩ := shadows_digits hf hrest hlabelled.keep hstay
    exact ⟨congrArg (seen || ·) hseen, hdigits⟩
  · rename_i hbegins
    have hbegins' : ¬(t.isIn f.point && (f.emptyParts || seen && t.followingIn f.digit)) = true := by
      intro ht
      obtain ⟨hpoint, hmore⟩ := Bool.and_eq_true_iff.mp ht
      have hv := h.ne_nil_of_isIn hrest hf.point hpoint
      refine hbegins (Bool.and_eq_true_iff.mpr ⟨h.isIn_imp hrest hf.point hpoint, ?_⟩)
      rw [Bool.or_eq_true, Bool.and_eq_true] at hmore ⊢
      exact hmore.imp_right (And.imp_right (h.followingIn_imp hrest hf.digit hv))
    rw [if_neg hbegins, if_neg hbegins']
    obtain rfl := List.append_cancel_right (h.upcoming.symm.trans hstay)
    exact ⟨rfl, h⟩

theorem exponentFollows_imp (hf : f.LacksBlank) (hrest : IsParted rest')
    (h : s.Shadows v rest rest' t) (ht : f.exponentFollows t = true) :
    f.exponentFollows s = true := by
  rw [exponentFollows, Bool.and_eq_true, Bool.or_eq_true, Bool.and_eq_true] at ht ⊢
  obtain ⟨hin, hmore⟩ := ht
  have hv := h.ne_nil_of_isIn hrest hf.exponent hin
  refine ⟨h.isIn_imp hrest hf.exponent hin, hmore.imp (h.followingIn_imp hrest hf.digit hv) ?_⟩
  rintro ⟨hsign, hdigit⟩
  refine ⟨h.followingIn_imp hrest hf.exponentSign hv hsign, ?_⟩
  have hpeek (u : Scanner) : u.peek? 2 = u.upcoming.chars[2]? := u.peek?_natCast 2
  rw [followingIn, following?_eq] at hsign
  have hlt := h.lt_of_covers hrest hf.exponentSign (List.length_pos_iff.mpr hv) hsign
  rw [hpeek] at hdigit ⊢
  exact h.covers_imp hrest hf.digit hlt hdigit

/-- An exponent that stays in the common text has its first digit there. -/
theorem lt_of_exponentFollows (h : s.Shadows v rest rest' t)
    (hstay : (f.exponentPart s).upcoming.chars = w ++ rest) (hs : f.exponentFollows s = true) :
    1 < v.length ∧ (¬s.followingIn f.digit = true → 2 < v.length) := by
  have hlabelled := h.setKind f.realKind
  have hnext (k : CharClass) : (s.setKind f.realKind).keep.isIn k = s.followingIn k :=
    isIn_apply (.inl rfl) (s.setKind f.realKind) k
  have hthird : (s.setKind f.realKind).keep.keep.isIn f.digit = f.digit.covers (s.peek? 2) := by
    have hup : (s.setKind f.realKind).keep.upcoming.chars = s.upcoming.chars.tail :=
      upcoming_apply (.inl rfl) (s.setKind f.realKind)
    have hpeek : s.peek? 2 = s.upcoming.chars[2]? := s.peek?_natCast 2
    rw [show (s.setKind f.realKind).keep.keep.isIn f.digit = _ from isIn_apply (.inl rfl) _ _,
      followingIn, following?_eq, hup, hpeek, List.getElem?_tail]
  rw [exponentPart, if_pos hs] at hstay
  rw [exponentFollows, Bool.and_eq_true, Bool.or_eq_true, Bool.and_eq_true] at hs
  obtain ⟨hin, hmore⟩ := hs
  obtain ⟨c, hc, -⟩ := exists_of_isIn hin
  dsimp only at hstay
  split at hstay
  · rename_i hsign
    obtain ⟨d, hd, -⟩ := exists_of_isIn hsign
    obtain ⟨x, hx⟩ := f.consumes_digitsWithin _ false (s.setKind f.realKind).keep.keep
    obtain rfl := hlabelled.eq_cons (.inl rfl) hc ((consumes_of_apply (.inl rfl) hd).trans hx) hstay
    refine ⟨by simp, fun hout => ?_⟩
    have hsigned : (s.setKind f.realKind).keep.keep.Shadows (x ++ w) rest rest' _ :=
      hlabelled.keep.keep
    have hdigit := hthird.trans (hmore.resolve_left hout).2
    have hpos := List.length_pos_iff.mpr (ne_nil_of_isIn_digit hsigned hstay hdigit)
    simp only [List.length_cons, List.length_append, List.length_nil] at hpos ⊢
    omega
  · rename_i hsign
    have hdigit : s.followingIn f.digit = true :=
      hmore.resolve_right fun hmore => hsign ((hnext f.exponentSign).trans hmore.1)
    obtain ⟨x, hx⟩ := f.consumes_digitsWithin _ false (s.setKind f.realKind).keep
    obtain rfl := hlabelled.eq_cons (.inl rfl) hc hx hstay
    exact ⟨one_lt_of_followingIn (.inl rfl) hlabelled hstay hdigit, fun hout => absurd hdigit hout⟩

theorem shadows_exponentPart (hf : f.LacksBlank) (hrest : IsParted rest')
    (h : s.Shadows v rest rest' t) (hstay : (f.exponentPart s).upcoming.chars = w ++ rest) :
    (f.exponentPart s).Shadows w rest rest' (f.exponentPart t) := by
  by_cases hs : f.exponentFollows s = true
  · obtain ⟨hlt, hlt'⟩ := lt_of_exponentFollows h hstay hs
    obtain ⟨c, v, rfl⟩ := List.exists_cons_of_length_pos (Nat.lt_trans Nat.zero_lt_one hlt)
    obtain ⟨d, v, rfl⟩ := List.exists_cons_of_length_pos (Nat.lt_of_succ_lt_succ hlt)
    have hne := List.cons_ne_nil c (d :: v)
    have ht : f.exponentFollows t = true := by
      rw [exponentFollows] at hs ⊢
      rw [h.isIn_eq hrest hf.exponent fun _ => hne,
        h.followingIn_eq hrest hf.digit hne fun _ => hlt,
        h.followingIn_eq hrest hf.exponentSign hne fun _ => hlt]
      by_cases hdigit : s.followingIn f.digit = true
      · rw [hdigit] at hs ⊢
        exact hs
      · have hpeek : t.peek? 2 = s.peek? 2 := by
          rw [show t.peek? 2 = _ from t.peek?_natCast 2,
            show s.peek? 2 = _ from s.peek?_natCast 2, h.getElem?_eq (hlt' hdigit)]
        rwa [hpeek]
    have hflag := (h.setKind f.realKind).keep
    rw [exponentPart, if_pos hs] at hstay ⊢
    rw [exponentPart, if_pos ht]
    dsimp only at hstay ⊢
    rw [hflag.isIn_eq hrest hf.exponentSign fun _ => List.cons_ne_nil d v]
    split at hstay
    · rename_i hsign
      rw [if_pos hsign, if_pos hsign]
      exact (shadows_digits hf hrest hflag.keep hstay).2
    · rename_i hsign
      rw [if_neg hsign, if_neg hsign]
      exact (shadows_digits hf hrest hflag hstay).2
  · have ht := mt (exponentFollows_imp hf hrest h) hs
    rw [exponentPart, if_neg hs] at hstay ⊢
    rw [exponentPart, if_neg ht]
    obtain rfl := List.append_cancel_right (h.upcoming.symm.trans hstay)
    exact h

/-! ### Numbers -/

/-- Consumes digits, fraction and exponent, where a zero is a digit as the others are. -/
def fullBody (f : Numeral) (s : Scanner) : Bool × Scanner :=
  if (f.fraction (f.digits s).1 (f.digits s).2).1 then
    (true, f.exponentPart (f.fraction (f.digits s).1 (f.digits s).2).2)
  else (false, (f.fraction (f.digits s).1 (f.digits s).2).2)

theorem body_eq (f : Numeral) (s : Scanner) :
    f.body s = if f.isLoneZero s then (true, s.keep) else f.fullBody s := rfl

theorem seen_fullBody : (f.fullBody s).1 = (f.fraction (f.digits s).1 (f.digits s).2).1 := by
  rw [fullBody]
  split
  · rename_i hseen
    exact hseen.symm
  · rename_i hseen
    exact (Bool.eq_false_iff.mpr hseen).symm

theorem shadows_fullBody (hf : f.LacksBlank) (hrest : IsParted rest')
    (h : s.Shadows v rest rest' t) (hseen : (f.fullBody s).1 = true)
    (hstay : (f.fullBody s).2.upcoming.chars = w ++ rest) :
    PairShadows w rest rest' (f.fullBody s) (f.fullBody t) := by
  rw [seen_fullBody] at hseen
  rw [fullBody, if_pos hseen] at hstay ⊢
  obtain ⟨x, hx, -⟩ : Reads (fun _ => True) _ (f.digits s).2 (f.fraction (f.digits s).1 _) :=
    reads_fraction trivial (f.digits s).1 (f.digits s).2
  obtain ⟨y, hy⟩ : ∃ y, Assembles (fun _ => True) _ y (f.exponentPart _) :=
    assembles_exponentPart trivial (f.fraction (f.digits s).1 (f.digits s).2).2
  have hexponent : (f.fraction (f.digits s).1 (f.digits s).2).2.upcoming.chars =
      (y ++ w) ++ rest := by
    rw [hy.consumes.upcoming, hstay, List.append_assoc]
  have hfraction : (f.digits s).2.upcoming.chars = (x ++ (y ++ w)) ++ rest := by
    rw [hx.consumes.upcoming, hexponent, List.append_assoc x]
  obtain ⟨hwhole, hdigits⟩ := shadows_digits hf hrest h hfraction
  obtain ⟨hmore, hfractions⟩ := shadows_fraction hf hrest (f.digits s).1 hdigits hexponent
  rw [fullBody, hwhole, hmore, if_pos hseen]
  exact ⟨rfl, shadows_exponentPart hf hrest hfractions hstay⟩

theorem isLoneZero_iff : f.isLoneZero s = true ↔ f.leadingZero = false ∧ s.current? = some '0' ∧
    ¬s.followingIn f.point = true ∧ ¬s.followingIn f.exponent = true := by
  simp [isLoneZero, and_assoc]

/-- A digit before a blank or the end of the text is a number of its own. -/
theorem fullBody_of_isParted (hf : f.LacksBlank) (hin : s.isIn f.digit = true)
    (htail : IsParted s.upcoming.chars.tail) : f.fullBody s = (true, s.keep) := by
  have hout {k : CharClass} (hk : k.contains ' ' = false) : s.keep.isIn k = false := by
    have hup : s.keep.upcoming.chars = s.upcoming.chars.tail := upcoming_apply (.inl rfl) s
    rw [isIn, Scanner.current?_eq, hup]
    rcases htail with htail | htail
    · rw [htail]
      rfl
    · rw [htail, CharClass.covers, Option.any_some, hk]
  have hdigits : f.digits s = (true, s.keep) := by
    have hstop : f.separates s.keep = false := by rw [separates, hout hf.separator]; rfl
    rw [digits, digitsWithin_eq, if_pos hin, digitsWithin_of_stop (hout hf.digit) hstop]
  have hfraction : f.fraction true s.keep = (true, s.keep) := by
    rw [fraction, hout hf.point]
    rfl
  have hexponent : f.exponentPart s.keep = s.keep := by
    rw [exponentPart, exponentFollows, hout hf.exponent]
    rfl
  rw [fullBody, hdigits, hfraction, if_pos rfl, hexponent]

theorem shadows_body (hf : f.LacksBlank) (hrest : IsParted rest') (h : s.Shadows v rest rest' t)
    (hseen : (f.body s).1 = true) (hstay : (f.body s).2.upcoming.chars = w ++ rest) :
    PairShadows w rest rest' (f.body s) (f.body t) := by
  rw [body_eq] at hseen hstay ⊢
  rw [body_eq]
  by_cases hs : f.isLoneZero s = true
  · obtain ⟨hleading, hc, hpoint, hexponent⟩ := isLoneZero_iff.mp hs
    rw [if_pos hs] at hstay ⊢
    obtain rfl := h.eq_cons (.inl rfl) hc (.refl _) hstay
    have hne := List.cons_ne_nil '0' ([] ++ w)
    have ht : f.isLoneZero t = true := isLoneZero_iff.mpr ⟨hleading, h.current?_replayed,
      mt (h.followingIn_imp hrest hf.point hne) hpoint,
      mt (h.followingIn_imp hrest hf.exponent hne) hexponent⟩
    rw [if_pos ht]
    exact ⟨rfl, h.keep⟩
  · rw [if_neg hs] at hseen hstay ⊢
    have hfull := shadows_fullBody hf hrest h hseen hstay
    by_cases ht : f.isLoneZero t = true
    · -- The scan has read the zero as digits, because a point or an exponent seemed to come next.
      obtain ⟨hleading, hc, hpoint, hexponent⟩ := isLoneZero_iff.mp ht
      obtain ⟨v, rfl⟩ := h.exists_eq_cons hrest (by decide) hc
      have hne := List.cons_ne_nil '0' v
      have hnil : v = [] := by
        by_contra hmore
        have hlt : 1 < ('0' :: v).length := Nat.succ_lt_succ (List.length_pos_iff.mpr hmore)
        refine hs (isLoneZero_iff.mpr ⟨hleading, h.current?_eq, ?_, ?_⟩)
        · rwa [← h.followingIn_eq hrest hf.point hne fun _ => hlt]
        · rwa [← h.followingIn_eq hrest hf.exponent hne fun _ => hlt]
      have hin : t.isIn f.digit = true := by
        rw [isIn, hc]
        exact hf.zero hleading
      have htail : IsParted t.upcoming.chars.tail := by
        rw [h.replayed, hnil]
        exact hrest
      rwa [if_pos ht, ← fullBody_of_isParted hf hin htail]
    · rwa [if_neg ht]

/-- Whether a separator stands before the first digit, where it is allowed. -/
def leadsWithSeparator (f : Numeral) (s : Scanner) : Bool :=
  f.leadingSeparator && s.isIn f.separator && s.followingIn f.digit

theorem passLeadingSeparator_eq (f : Numeral) (s : Scanner) :
    f.passLeadingSeparator s = if f.leadsWithSeparator s then s.skip else s := rfl

theorem leadsWithSeparator_imp (hf : f.LacksBlank) (hrest : IsParted rest')
    (h : s.Shadows v rest rest' t) (ht : f.leadsWithSeparator t = true) :
    f.leadsWithSeparator s = true := by
  rw [leadsWithSeparator, Bool.and_eq_true, Bool.and_eq_true] at ht ⊢
  obtain ⟨⟨hallowed, hin⟩, hdigit⟩ := ht
  have hv := h.ne_nil_of_isIn hrest hf.separator hin
  exact ⟨⟨hallowed, h.isIn_imp hrest hf.separator hin⟩,
    h.followingIn_imp hrest hf.digit hv hdigit⟩

/-- Digits, fraction and exponent after a lead. -/
theorem shadows_core (hf : f.LacksBlank) (hrest : IsParted rest') (h : s.Shadows v rest rest' t)
    (hseen : (f.core s).1 = true) (hstay : (f.core s).2.upcoming.chars = w ++ rest) :
    PairShadows w rest rest' (f.core s) (f.core t) := by
  rw [core, passLeadingSeparator_eq] at hseen hstay ⊢
  rw [core, passLeadingSeparator_eq]
  have hlabelled := h.setKind f.integerKind
  generalize s.setKind f.integerKind = s at *
  generalize t.setKind f.integerKind = t at *
  by_cases hs : f.leadsWithSeparator s = true
  · rw [if_pos hs] at hseen hstay ⊢
    have hparts := hs
    rw [leadsWithSeparator, Bool.and_eq_true, Bool.and_eq_true] at hparts
    obtain ⟨c, hc, -⟩ := exists_of_isIn hparts.1.2
    obtain ⟨x, hx, hne⟩ : Reads (fun _ => True) false s.skip (f.body s.skip) :=
      reads_body trivial s.skip
    have hx' := List.length_pos_iff.mpr ((hne hseen).resolve_left Bool.false_ne_true)
    obtain rfl := hlabelled.eq_cons (.inr rfl) hc hx.consumes hstay
    have hcons := List.cons_ne_nil c (x ++ w)
    have hlt : 1 < (c :: (x ++ w)).length := by
      rw [List.length_cons, List.length_append]
      omega
    have ht : f.leadsWithSeparator t = true := by
      rw [leadsWithSeparator] at hs ⊢
      rwa [hlabelled.isIn_eq hrest hf.separator fun _ => hcons,
        hlabelled.followingIn_eq hrest hf.digit hcons fun _ => hlt]
    rw [if_pos ht]
    exact shadows_body hf hrest hlabelled.skip hseen hstay
  · have ht := mt (leadsWithSeparator_imp hf hrest hlabelled) hs
    rw [if_neg hs] at hseen hstay ⊢
    rw [if_neg ht]
    exact shadows_body hf hrest hlabelled hseen hstay

/-! ### Numbers that are found in the replay -/

theorem seen_body_of_digits (h : (f.digits s).1 = true) : (f.body s).1 = true := by
  rw [body_eq]
  split
  · rfl
  · rw [seen_fullBody, h, fraction]
    split <;> rfl

theorem seen_body_imp (hf : f.LacksBlank) (hrest : IsParted rest') (h : s.Shadows v rest rest' t)
    (ht : (f.body t).1 = true) : (f.body s).1 = true := by
  by_cases hdigits : (f.digits s).1 = true
  · exact seen_body_of_digits hdigits
  · have hdigits' := mt (seen_digits_imp hf hrest h) hdigits
    have hzero (u : Scanner) (hu : ¬(f.digits u).1 = true) : ¬f.isLoneZero u = true := by
      intro hzero
      obtain ⟨hleading, hc, -⟩ := isLoneZero_iff.mp hzero
      refine hu (seen_digits_iff.mpr (.inl ?_))
      rw [isIn, hc]
      exact hf.zero hleading
    rw [body_eq, if_neg (hzero t hdigits'), seen_fullBody, digits_of_not_seen hdigits'] at ht
    rw [body_eq, if_neg (hzero s hdigits), seen_fullBody, digits_of_not_seen hdigits]
    -- There is a fraction without digits before it.
    rw [fraction] at ht ⊢
    split at ht
    · rename_i hbegins
      have hpoint := (Bool.and_eq_true_iff.mp hbegins).1
      obtain ⟨c, v, rfl⟩ :=
        List.exists_cons_of_ne_nil (h.ne_nil_of_isIn hrest hf.point hpoint)
      have hempty : f.emptyParts = true := by simpa using (Bool.and_eq_true_iff.mp hbegins).2
      have hpoint' := h.isIn_imp hrest hf.point hpoint
      rw [hpoint', hempty]
      exact seen_digits_imp hf hrest (h.setKind f.realKind).keep ht
    · exact absurd ht Bool.false_ne_true

theorem seen_core_imp (hf : f.LacksBlank) (hrest : IsParted rest') (h : s.Shadows v rest rest' t)
    (ht : (f.core t).1 = true) : (f.core s).1 = true := by
  rw [core, passLeadingSeparator_eq] at ht ⊢
  have hlabelled := h.setKind f.integerKind
  generalize s.setKind f.integerKind = s at *
  generalize t.setKind f.integerKind = t at *
  by_cases hs : f.leadsWithSeparator s = true
  · rw [if_pos hs]
    rw [leadsWithSeparator, Bool.and_eq_true] at hs
    exact seen_body_of_digits (seen_digits_iff.mpr (.inl ((isIn_apply (.inr rfl) s _).trans hs.2)))
  · rw [if_neg hs]
    rw [if_neg (mt (leadsWithSeparator_imp hf hrest hlabelled) hs)] at ht
    exact seen_body_imp hf hrest hlabelled ht

/-! ### Leads and suffixes -/

theorem scan_of_parts {lead suffix : Scanner → Outcome} {found : Bool} {a : Scanner}
    (hlead : lead (f.takeSign s) = .ok (true, a)) (hseen : (f.core a).1 = true)
    (hsuffix : suffix ((f.core a).2.setKind? f.kind) = .ok (found, u)) :
    f.scan lead suffix s = .ok (true, u) := by
  rw [scan, hlead]
  change (if !(f.core a).1 then Except.ok (false, (f.core a).2.rewind)
    else suffix ((f.core a).2.setKind? f.kind) >>= fun p => .ok (true, p.2)) = _
  rw [hseen, hsuffix]
  rfl

theorem shadows_takeSign (hf : f.LacksBlank) (hrest : IsParted rest')
    (h : s.Shadows v rest rest' t) (hv : v ≠ []) :
    ∃ v', (f.takeSign s).Shadows v' rest rest' (f.takeSign t) := by
  rw [takeSign, takeSign, h.isIn_eq hrest hf.sign fun _ => hv]
  split
  · obtain ⟨c, v, rfl⟩ := List.exists_cons_of_ne_nil hv
    exact ⟨v, h.keep⟩
  · exact ⟨v, h⟩

end Numeral

/-- What matches in a replay matches in the scan, and does the same. -/
def Scanner.IsPersistent (attempt : Scanner → Outcome) : Prop :=
  ∀ ⦃v rest rest' s t u'⦄, IsParted rest' → s.Shadows v rest rest' t →
    attempt t = .ok (true, u') →
    ∃ w u, attempt s = .ok (true, u) ∧ u.Shadows w rest rest' u'

namespace Numeral

variable {f : Numeral} {lead suffix : Scanner → Outcome}

/-- A number is cut out again, if that holds of its lead and of its suffix. -/
theorem exists_scan_of_match (hf : f.LacksBlank) (hrest : IsParted rest') (hlead : IsFaithful lead)
    (hsuffix : IsFaithful suffix)
    (hsuffixSteady : ∀ s, Outcome.Steady (fun _ => True) s (suffix s))
    (h : s.Shadows v rest rest' t) (hv : v ≠ []) (hu : f.scan lead suffix s = .ok (true, u))
    (hclean : u.draft.diagnostics = #[]) (hstay : u.upcoming.chars = w ++ rest) :
    ∃ u', f.scan lead suffix t = .ok (true, u') ∧ u.Shadows w rest rest' u' := by
  obtain ⟨a, found, ha, hseen, hsuffixed⟩ := exists_of_match hu
  obtain ⟨y, hy, -⟩ : Reads (fun _ => True) false a (f.core a) :=
    reads_core ⟨trivial, trivial, fun _ _ => trivial⟩ a
  obtain ⟨_, z, _, hz', hz⟩ := (hsuffixSteady ((f.core a).2.setKind? f.kind)).exists_assembles
  obtain ⟨rfl, rfl⟩ := Prod.mk.inj (Except.ok.inj (hsuffixed.symm.trans hz'))
  have hlabelled : Assembles (fun _ => True) (f.core a).2 [] ((f.core a).2.setKind? f.kind) :=
    Assembles.refl.setKind? fun _ _ => trivial
  have hend := hlabelled.trans hz
  have hcore : (f.core a).2.upcoming.chars = (z ++ w) ++ rest := by
    rw [hend.consumes.upcoming, hstay, List.nil_append, List.append_assoc]
  have hled : a.upcoming.chars = (y ++ (z ++ w)) ++ rest := by
    rw [hy.consumes.upcoming, hcore, List.append_assoc y]
  have hnone := (hy.trans hend).diagnostics_eq_empty hclean
  obtain ⟨v', hsign⟩ := shadows_takeSign hf hrest h hv
  obtain ⟨a', ha', hshadows⟩ := hlead hrest hsign ha hnone hled
  obtain ⟨hseen', hcores⟩ := shadows_core hf hrest hshadows hseen hcore
  obtain ⟨u', hu', hshadows'⟩ := hsuffix hrest (hcores.setKind? f.kind) hsuffixed hclean hstay
  exact ⟨u', scan_of_parts ha' (hseen'.trans hseen) hu', hshadows'⟩

/-- Where there is no number in the scan, there is none in the replay. -/
theorem exists_scan_of_miss (hf : f.LacksBlank) (hrest : IsParted rest')
    (hlead : IsPersistent lead) (hleadSteady : ∀ s, Outcome.Steady (fun _ => True) s (lead s))
    (hsuffixSteady : ∀ s, Outcome.Steady (fun _ => True) s (suffix s))
    (h : s.Shadows v rest rest' t) (hv : v ≠ []) (hu : f.scan lead suffix s = .ok (false, u)) :
    ∃ u', f.scan lead suffix t = .ok (false, u') := by
  obtain ⟨v', hsign⟩ := shadows_takeSign hf hrest h hv
  obtain ⟨led, _, a', ha', -⟩ := (hleadSteady (f.takeSign t)).exists_assembles
  cases led with
  | false => exact ⟨a'.rewind, by rw [scan, ha']; rfl⟩
  | true =>
    by_cases hseen : (f.core a').1 = true
    · obtain ⟨_, a, ha, hshadows⟩ := hlead hrest hsign ha'
      obtain ⟨_, _, b, hb, -⟩ := (hsuffixSteady ((f.core a).2.setKind? f.kind)).exists_assembles
      have hmatch := scan_of_parts ha (seen_core_imp hf hrest hshadows hseen) hb
      exact absurd (Prod.mk.inj (Except.ok.inj (hu.symm.trans hmatch))).1 Bool.false_ne_true
    · refine ⟨(f.core a').2.rewind, ?_⟩
      rw [scan, ha']
      change (if !(f.core a').1 then Except.ok (false, (f.core a').2.rewind) else _) = _
      rw [Bool.eq_false_iff.mpr hseen]
      rfl

end Numeral

namespace Rule

variable {flags : Flags}

/-- Literals of one length without blanks that are found in the replay are found in the scan. -/
theorem isPersistent_literal {l : LiteralRule} (hwords : ∀ w, l.words.contains w → ' ' ∉ w)
    (hlength : ∀ w w', l.words.contains w → l.words.contains w' → w.length = w'.length) :
    IsPersistent ((literal l).eval flags) := by
  intro v rest rest' s t u' hrest h hu'
  have hfound := eq_some_of_settle hu'
  rw [LiteralRule.attempt] at hfound
  split at hfound
  · exact absurd hfound.symm (Option.some_ne_none u')
  · rename_i hne
    have hreplayed : l.longest t = l.words.longest v := by
      rw [LiteralRule.longest, h.replayed, WordTree.longest_append hwords hrest]
    have hscanned : l.longest s = l.words.longest v := by
      rw [LiteralRule.longest, h.upcoming]
      exact WordTree.longest_append_of_length hlength (hreplayed ▸ hne) rest
    rw [hreplayed] at hfound hne
    obtain rfl := Option.some.inj hfound
    have hm := Move.isForward_ite l.skipped
    have hle := l.words.longest_le_length v
    have hle' : l.words.longest v ≤ s.upcoming.chars.length := by
      rw [h.upcoming, List.length_append]
      omega
    have hstay : (s.times (l.words.longest v) (if l.skipped then .skip else .keep)).upcoming.chars =
        v.drop (l.words.longest v) ++ rest := by
      rw [upcoming_times hm, h.upcoming, List.drop_append_of_le_length hle]
    refine ⟨_, _, ?_, (h.times hm hle' hstay).2.setKind? l.kind⟩
    rw [eval_literal, LiteralRule.attempt, hscanned]
    split
    · exact absurd ‹_› hne
    · rfl

theorem isPersistent_evalLead {lead : Option Rule} (h : ∀ r ∈ lead, IsPersistent (r.eval flags)) :
    IsPersistent (evalLead flags lead) := by
  cases lead with
  | none =>
    intro v rest rest' s t u' _ h hu'
    obtain ⟨-, rfl⟩ := Prod.mk.inj (Except.ok.inj hu')
    exact ⟨v, s, rfl, h⟩
  | some r => exact h r rfl

/-- Numbers replay if their leads and suffixes do. -/
theorem replays_number {f : Numeral} {lead : Option Rule} {suffixes : List Rule}
    (hf : f.LacksBlank) (hlead : ∀ r ∈ lead, IsFaithful (r.eval flags))
    (hpersistent : ∀ r ∈ lead, IsPersistent (r.eval flags))
    (hleadSteady : ∀ r ∈ lead, r.IsSteady flags fun _ => True)
    (hsuffixes : ∀ r ∈ suffixes, IsFaithful (r.eval flags))
    (hsuffixesSteady : ∀ r ∈ suffixes, r.IsSteady flags fun _ => True) :
    (number f lead suffixes).Replays flags where
  matched _ _ _ _ _ _ hrest _ hv h hu hstay hclean _ :=
    Numeral.exists_scan_of_match hf hrest (isFaithful_evalLead hlead)
      (isFaithful_evalFirst hsuffixesSteady hsuffixes) (steady_evalFirst hsuffixesSteady) h hv hu
      hclean hstay
  missed _ _ _ _ _ _ hrest hv h hu :=
    Numeral.exists_scan_of_miss hf hrest (isPersistent_evalLead hpersistent)
      (steady_evalLead hleadSteady) (steady_evalFirst hsuffixesSteady) h hv hu

end Rule

end Lexing
