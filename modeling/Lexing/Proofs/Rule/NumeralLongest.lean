import Lexing.Proofs.Rule.NumeralGrammar
import Lexing.Proofs.Rule.NumeralReplay
import Lexing.Proofs.Scanner.Decoding

/-!
# Numbers are matched as far as possible

The rule for numbers takes the longest run of digits, the longest fraction after it and the longest
exponent after that. If the classes of the parts have nothing in common, this is the longest number
that the text begins with, and the rule fails only if there is none.

## Main definitions

* `Numeral.Takes` : a part of a number was consumed.

## Main results

* `Numeral.exists_takes_digits`, `Numeral.exists_takes_fraction`, `Numeral.exists_takes_exponent` :
  the parts of a number.
* `Numeral.exists_takes_body` : a number without sign.
* `Numeral.takes_longest_number` : the longest number is found and consumed.
-/

namespace Lexing

open Scanner

variable {s t u : Scanner} {w v : List Char} {c : Char}

/-! ### What stands next and before -/

theorem Scanner.isIn_eq_covers (s : Scanner) (k : CharClass) :
    s.isIn k = k.covers s.upcoming.chars.head? := by
  rw [isIn, Scanner.current?_eq]

theorem Scanner.followingIn_eq_covers (s : Scanner) (k : CharClass) :
    s.followingIn k = k.covers s.upcoming.chars[1]? := by
  rw [followingIn, Scanner.following?_eq]

/-- The code point before the current one is the last of the literal. -/
theorem Scanner.peek?_neg_one (s : Scanner) : s.peek? (-1) = s.draft.literal.getLast? := by
  rw [show s.peek? (-1) = _ from s.peek?_negSucc 0, List.getLast?_eq_head?_reverse,
    List.head?_eq_getElem?]

/-- After a code point was consumed, it is the one before the current one. -/
theorem Scanner.Consumes.peek?_neg_one (h : s.Consumes (w ++ [c]) t) : t.peek? (-1) = some c := by
  rw [Scanner.peek?_neg_one, h.literal, ← List.append_assoc, List.getLast?_concat]

theorem Scanner.Consumes.setKind? (h : s.Consumes w t) (kind : Option String) :
    s.Consumes w (t.setKind? kind) := by
  cases kind with
  | none => exact h
  | some kind => exact h.setKind kind

theorem Scanner.diagnostics_setKind? (s : Scanner) (kind : Option String) :
    (s.setKind? kind).draft.diagnostics = s.draft.diagnostics := by
  cases kind <;> rfl

namespace Numeral

variable {f : Numeral} {real : Bool}

/-! ### Parts of a number -/

/-- The text `w` was consumed within the draft. What is no separator was added to the value, nothing
was reported, and the draft got the kind of reals if `real`. -/
structure Takes (f : Numeral) (real : Bool) (s : Scanner) (w : List Char) (t : Scanner) : Prop where
  consumes : s.Consumes w t
  value : t.draft.value = s.draft.value ++ Utf8.encode (w.filter fun c => !f.separator.contains c)
  kind : t.draft.kind = if real then f.realKind else s.draft.kind
  diagnostics : t.draft.diagnostics = s.draft.diagnostics

namespace Takes

theorem refl (f : Numeral) (s : Scanner) : f.Takes false s [] s :=
  ⟨.refl s, by simp [Utf8.encode], rfl, rfl⟩

theorem trans {real' : Bool} (h₁ : f.Takes real s v t) (h₂ : f.Takes real' t w u) :
    f.Takes (real || real') s (v ++ w) u where
  consumes := h₁.consumes.trans h₂.consumes
  value := by
    rw [h₂.value, h₁.value, List.filter_append, Utf8.encode, Utf8.encode, Utf8.encode,
      List.flatMap_append, List.append_assoc]
  kind := by
    rw [h₂.kind, h₁.kind]
    cases real <;> cases real' <;> rfl
  diagnostics := h₂.diagnostics.trans h₁.diagnostics

theorem of_decodes (h : s.Decodes w (w.filter fun c => !f.separator.contains c) t) :
    f.Takes false s w t :=
  ⟨h.consumes, h.value, h.kind, h.diagnostics⟩

theorem keep (hc : s.current? = some c) (hseparator : ¬f.separator.contains c = true) :
    f.Takes false s [c] s.keep :=
  of_decodes (by simpa [hseparator] using decodes_keep hc)

theorem skip (hc : s.current? = some c) (hseparator : f.separator.contains c = true) :
    f.Takes false s [c] s.skip :=
  of_decodes (by simpa [hseparator] using decodes_skip hc)

/-- The code point that begins a fraction or an exponent. -/
theorem keep_real (hc : s.current? = some c) (hseparator : ¬f.separator.contains c = true) :
    f.Takes true s [c] (s.setKind f.realKind).keep := by
  have hkind : f.Takes true s [] (s.setKind f.realKind) :=
    ⟨(Consumes.refl s).setKind _, (List.append_nil _).symm, rfl, rfl⟩
  exact hkind.trans (keep hc hseparator)

/-- The kind that the draft has before does not matter for what is taken. -/
theorem setKind (h : f.Takes false s w t) (kind : String) :
    f.Takes false (s.setKind kind) w (t.setKind kind) where
  consumes := ⟨h.consumes.upcoming, h.consumes.literal, h.consumes.position, h.consumes.start,
    h.consumes.previousKind, h.consumes.stalls, h.consumes.isClean⟩
  value := h.value
  kind := rfl
  diagnostics := h.diagnostics

theorem upcoming_eq (h : f.Takes real s w t) : s.upcoming.chars = w ++ t.upcoming.chars :=
  h.consumes.upcoming

end Takes

/-! ### Digits -/

/-- After a digit, digits and separators are taken up to the end of the run. -/
theorem exists_takes_after (hf : f.IsUnambiguous) (hc : f.digit.contains c = true)
    (hlast : s.peek? (-1) = some c) (seen : Bool) :
    ∃ w, f.Takes false s w (f.digitsWithin s.upcoming.chars seen s).2 ∧
      IsLongest f.IsRun (c :: s.upcoming.chars) (c :: w) := by
  induction hn : s.upcoming.chars.length using Nat.strongRecOn generalizing s c seen with
  | ind n ih =>
    rw [digitsWithin_eq]
    split
    · rename_i hin
      obtain ⟨d, hd, hdigit⟩ := exists_of_isIn hin
      have hkeep := Takes.keep hd (hf.digit_separator d hdigit)
      have hup := hkeep.upcoming_eq
      obtain ⟨w, hw, hlongest⟩ := ih _ (by rw [← hn, hup]; simp) hdigit
        (hkeep.consumes.peek?_neg_one (w := [])) true rfl
      rw [hup]
      exact ⟨d :: w, hkeep.trans hw, isLongest_run_more hf hc hlongest⟩
    · rename_i hout
      split
      · rename_i hseparates
        -- The separator and the digit after it are passed together.
        obtain ⟨hin, hnext⟩ := isIn_of_separates hseparates
        obtain ⟨d, hd, hseparator⟩ := exists_of_isIn hin
        obtain ⟨e, he, hdigit⟩ := exists_of_isIn hnext
        have hpair := (Takes.skip hd hseparator).trans (Takes.keep he (hf.digit_separator e hdigit))
        have hup := hpair.upcoming_eq
        obtain ⟨w, hw, hlongest⟩ := ih _ (by grind) hdigit
          (hpair.consumes.peek?_neg_one (w := [d])) true rfl
        rw [digitsWithin_eq, if_pos hnext, hup]
        exact ⟨d :: e :: w, hpair.trans hw, isLongest_run_separated hf hc hseparator hlongest⟩
      · rename_i hseparates
        refine ⟨[], .refl f s, isLongest_run_single hc ?_ fun hseparator => ?_⟩
        · rw [← isIn_eq_covers]
          exact Bool.eq_false_iff.mpr hout
        · rw [separates, hlast, isIn_eq_covers, hseparator, followingIn_eq_covers,
            show f.digit.covers (some c) = true from hc, Bool.true_and, Bool.and_true] at hseparates
          exact Bool.eq_false_iff.mpr hseparates

/-- Where no digit comes before, the longest run of digits is taken. -/
theorem exists_takes_digits (hf : f.IsUnambiguous) (hlast : f.digit.covers (s.peek? (-1)) = false) :
    ∃ w, f.Takes false s w (f.digits s).2 ∧ IsLongest f.IsRun s.upcoming.chars w ∧
      (f.digits s).1 = !w.isEmpty := by
  rw [digits, digitsWithin_eq]
  split
  · rename_i hin
    obtain ⟨c, hc, hdigit⟩ := exists_of_isIn hin
    have hkeep := Takes.keep hc (hf.digit_separator c hdigit)
    obtain ⟨w, hw, hlongest⟩ :=
      exists_takes_after hf hdigit (hkeep.consumes.peek?_neg_one (w := [])) true
    rw [hkeep.upcoming_eq]
    exact ⟨c :: w, hkeep.trans hw, hlongest, seen_digitsWithin ..⟩
  · rename_i hout
    rw [separates, hlast, Bool.and_false, if_neg Bool.false_ne_true]
    refine ⟨[], .refl f s, isLongest_run_nil ?_, rfl⟩
    rw [← isIn_eq_covers]
    exact Bool.eq_false_iff.mpr hout

/-- After a code point that is no digit, the longest run of digits is taken. -/
theorem Takes.exists_takes_digits (hf : f.IsUnambiguous) (h : f.Takes real s (v ++ [c]) t)
    (hc : ¬f.digit.contains c = true) :
    ∃ w, f.Takes false t w (f.digits t).2 ∧ IsLongest f.IsRun t.upcoming.chars w ∧
      (f.digits t).1 = !w.isEmpty := by
  refine Numeral.exists_takes_digits hf ?_
  rw [h.consumes.peek?_neg_one]
  exact Bool.eq_false_iff.mpr hc

/-- A run begins where a digit stands. -/
theorem ne_nil_of_covers (h : IsLongest f.IsRun v w) (hdigit : f.digit.covers v.head? = true) :
    w ≠ [] := by
  rintro rfl
  cases v with
  | nil => exact absurd hdigit Bool.false_ne_true
  | cons c v => exact absurd (h.longest [c] (.digit hdigit) (by simp)) (by simp)

/-! ### Fraction and exponent -/

/-- The longest fraction is taken. There is none, and no digits before, if the number fails. -/
theorem exists_takes_fraction (hf : f.IsUnambiguous) (seen : Bool) (s : Scanner) :
    ((f.fraction seen s).1 = true → ∃ y, f.Takes (!y.isEmpty) s y (f.fraction seen s).2 ∧
      IsLongest (f.IsFraction seen) s.upcoming.chars y ∧ (seen = true ∨ y ≠ [])) ∧
    ((f.fraction seen s).1 = false → seen = false ∧
      ∀ v, f.IsFraction seen v → ¬v <+: s.upcoming.chars) := by
  rw [fraction]
  split
  · rename_i hbegins
    rw [Bool.and_eq_true, Bool.or_eq_true, Bool.and_eq_true, followingIn_eq_covers] at hbegins
    obtain ⟨hin, hmore⟩ := hbegins
    obtain ⟨p, hp, hpoint⟩ := exists_of_isIn hin
    have hkeep := Takes.keep_real hp fun hseparator => hf.separator_point p hseparator hpoint
    obtain ⟨v, hv, hlongest, hseen⟩ := Takes.exists_takes_digits (v := []) hf hkeep
      fun hdigit => hf.digit_point p hdigit hpoint
    have hup := hkeep.upcoming_eq
    dsimp only
    rw [hseen, hup]
    refine ⟨fun hfound => ⟨p :: v, hkeep.trans hv, ⟨fun _ => ?_, ?_, ?_⟩, ?_⟩, fun hmiss => ?_⟩
    · rw [Bool.or_eq_true] at hfound
      by_cases hne : v = []
      · -- Without digits after it, a point needs digits before it and the leave to stand last.
        subst hne
        refine .point (hfound.resolve_right Bool.false_ne_true)
          (hmore.resolve_right fun hdigit => ?_) hpoint
        refine ne_nil_of_covers hlongest ?_ rfl
        rw [hup] at hdigit
        simpa [List.head?_eq_getElem?] using hdigit.2
      · exact .digits (hmore.symm.imp_left And.left) hpoint (hlongest.mem hne)
    · exact List.cons_prefix_cons.mpr ⟨rfl, hlongest.begins⟩
    · exact fun z hz hz' => hz.prefix_cons hz' hlongest
    · exact .inr (List.cons_ne_nil p v)
    · rw [Bool.or_eq_false_iff, Bool.not_eq_false', List.isEmpty_iff] at hmiss
      obtain ⟨rfl, rfl⟩ := hmiss
      refine ⟨rfl, fun z hz hz' => ?_⟩
      have hsingle := hz.prefix_cons hz' hlongest
      cases hz with
      | digits _ _ hrun =>
        obtain ⟨c, u, rfl, -⟩ := hrun.exists_digit
        simp at hsingle
      | point hseen => exact absurd hseen Bool.false_ne_true
  · rename_i hbegins
    have hnone (v : List Char) (hv : f.IsFraction seen v) : ¬v <+: s.upcoming.chars := by
      intro hv'
      obtain ⟨hpoint, hmore⟩ := hv.begins hv'
      refine hbegins ?_
      rw [Bool.and_eq_true, Bool.or_eq_true, Bool.and_eq_true, isIn_eq_covers,
        followingIn_eq_covers]
      exact ⟨hpoint, hmore⟩
    exact ⟨fun hseen => ⟨[], .refl f s, isLongest_nil hnone, .inl hseen⟩,
      fun hseen => ⟨hseen, hnone⟩⟩

/-- The longest exponent is taken. -/
theorem exists_takes_exponent (hf : f.IsUnambiguous) (s : Scanner) :
    ∃ x, f.Takes (!x.isEmpty) s x (f.exponentPart s) ∧
      IsLongest f.IsExponent s.upcoming.chars x := by
  have hfollows : f.exponentFollows s = true ↔ f.exponent.covers s.upcoming.chars.head? = true ∧
      (f.digit.covers s.upcoming.chars[1]? = true ∨
        f.exponentSign.covers s.upcoming.chars[1]? = true ∧
          f.digit.covers s.upcoming.chars[2]? = true) := by
    rw [exponentFollows, Bool.and_eq_true, Bool.or_eq_true, Bool.and_eq_true, isIn_eq_covers,
      followingIn_eq_covers, followingIn_eq_covers, show s.peek? 2 = _ from s.peek?_natCast 2]
  rw [exponentPart]
  split
  · rename_i hbegins
    obtain ⟨hin, hmore⟩ := hfollows.mp hbegins
    rw [← isIn_eq_covers] at hin
    obtain ⟨e, he, hexponent⟩ := exists_of_isIn hin
    have hkeep := Takes.keep_real he fun hseparator => hf.separator_exponent e hseparator hexponent
    have hup := hkeep.upcoming_eq
    dsimp only
    split
    · rename_i hsign
      obtain ⟨x, hx, hsign⟩ := exists_of_isIn hsign
      have hkeep' := hkeep.trans (Takes.keep hx (hf.exponentSign_separator x hsign))
      obtain ⟨w, hw, hlongest, -⟩ := Takes.exists_takes_digits (v := [e]) hf hkeep'
        (hf.exponentSign_digit x hsign)
      have hup' := hkeep'.upcoming_eq
      have hne : w ≠ [] := by
        refine ne_nil_of_covers hlongest ?_
        rw [hup'] at hmore
        -- The sign is no digit, so the digit is the code point after it.
        have hdigit := (hmore.resolve_left (hf.exponentSign_digit x hsign)).2
        simpa [List.head?_eq_getElem?] using hdigit
      rw [hup']
      exact ⟨e :: x :: w, hkeep'.trans hw,
        isLongest_exponent_signed hf hexponent hsign hne hlongest⟩
    · rename_i hsign
      rw [isIn_eq_covers] at hsign
      obtain ⟨w, hw, hlongest, -⟩ := Takes.exists_takes_digits (v := []) hf hkeep
        fun hdigit => hf.digit_exponent e hdigit hexponent
      have hne : w ≠ [] := by
        refine ne_nil_of_covers hlongest ?_
        rw [List.head?_eq_getElem?] at hsign ⊢
        rw [hup] at hmore
        exact hmore.resolve_right fun hsigned => hsign hsigned.1
      rw [hup]
      exact ⟨e :: w, hkeep.trans hw,
        isLongest_exponent_unsigned hexponent (Bool.eq_false_iff.mpr hsign) hne hlongest⟩
  · rename_i hbegins
    exact ⟨[], .refl f s, isLongest_nil fun v hv hv' => hbegins (hfollows.mpr (hv.begins hv'))⟩

/-! ### Numbers without sign -/

/-- A zero is the longest run where the code point after it begins a fraction or an exponent. -/
theorem eq_zero_of_isLongest (hf : f.IsUnambiguous) (hw : IsLongest f.IsRun ('0' :: v) w)
    (hne : w ≠ []) (hnext : f.point.covers v.head? = true ∨ f.exponent.covers v.head? = true) :
    w = ['0'] := by
  obtain ⟨c, u, rfl⟩ := List.exists_cons_of_ne_nil hne
  obtain ⟨rfl, hbegins⟩ := List.cons_prefix_cons.mp hw.begins
  cases u with
  | nil => rfl
  | cons c u =>
    rw [head?_eq_of_begins rfl hbegins] at hnext
    exact absurd hnext ((hw.mem hne).not_mark_of_mem hf (by simp))

/-- Where a zero does not stand alone, the longest run is the longest text of digits before a
fraction. -/
theorem isLongest_whole_of_not_isLoneZero (hf : f.IsUnambiguous) (hzero : ¬f.isLoneZero s = true)
    (hw : IsLongest f.IsRun s.upcoming.chars w) : IsLongest f.IsWhole s.upcoming.chars w := by
  refine isLongest_whole_of_run hw fun hleading hhead => ?_
  obtain ⟨v, hv⟩ := List.head?_eq_some_iff.mp hhead
  rw [isLoneZero_iff, Scanner.current?_eq, followingIn_eq_covers, followingIn_eq_covers,
    hv] at hzero
  rw [hv] at hw
  refine eq_zero_of_isLongest hf hw (ne_nil_of_covers hw (hf.zero hleading)) ?_
  rw [List.head?_eq_getElem?]
  refine Decidable.byContradiction fun hnext => hzero ⟨hleading, rfl, ?_, ?_⟩
  · exact fun hpoint => hnext (.inl hpoint)
  · exact fun hexponent => hnext (.inr hexponent)

/-- The longest number without sign is taken. There is none if the number fails. -/
theorem exists_takes_body (hf : f.IsUnambiguous) (hlast : f.digit.covers (s.peek? (-1)) = false) :
    ((f.body s).1 = true → ∃ real w, f.Takes real s w (f.body s).2 ∧ f.IsMagnitude real w ∧
      ∀ r v, f.IsMagnitude r v → v <+: s.upcoming.chars → v <+: w) ∧
    ((f.body s).1 = false → ∀ r v, f.IsMagnitude r v → ¬v <+: s.upcoming.chars) := by
  rw [body]
  split
  · rename_i hzero
    obtain ⟨hleading, hc, hpoint, hexponent⟩ := isLoneZero_iff.mp hzero
    have hkeep := Takes.keep hc (hf.digit_separator '0' (hf.zero hleading))
    rw [← isIn_apply (.inl rfl) s f.point, isIn_eq_covers] at hpoint
    rw [← isIn_apply (.inl rfl) s f.exponent, isIn_eq_covers] at hexponent
    have hfraction : IsLongest (f.IsFraction true) s.keep.upcoming.chars [] :=
      isLongest_nil fun v hv hbegins => hpoint (hv.begins hbegins).1
    have hscale : IsLongest f.IsExponent s.keep.upcoming.chars [] :=
      isLongest_nil fun v hv hbegins => hexponent (hv.begins hbegins).1
    rw [hkeep.upcoming_eq]
    exact ⟨fun _ => ⟨false, ['0'], hkeep, isMagnitude_of_isLongest hf
      (isLongest_whole_zero hf hleading) rfl hfraction rfl hscale (.inl (List.cons_ne_nil _ _))⟩,
      Bool.noConfusion⟩
  · rename_i hzero
    obtain ⟨w, hw, hrun, hseen⟩ := Numeral.exists_takes_digits hf hlast
    have hwhole := isLongest_whole_of_not_isLoneZero hf hzero hrun
    obtain ⟨hfound, hmissed⟩ := exists_takes_fraction hf (f.digits s).1 (f.digits s).2
    rw [hseen] at hfound hmissed
    dsimp only
    rw [hseen]
    split
    · rename_i h
      obtain ⟨y, hy, hfraction, hdigits⟩ := hfound h
      obtain ⟨x, hx, hscale⟩ := exists_takes_exponent hf (f.fraction (!w.isEmpty) (f.digits s).2).2
      refine ⟨fun _ => ⟨_, _, hw.trans (hy.trans hx), isMagnitude_of_isLongest hf hwhole
        hw.upcoming_eq hfraction hy.upcoming_eq hscale ?_⟩, Bool.noConfusion⟩
      simpa using hdigits
    · rename_i h
      obtain ⟨hnone, hmiss⟩ := hmissed (Bool.eq_false_iff.mpr h)
      obtain rfl : w = [] := by simpa using hnone
      have hup := hw.upcoming_eq
      rw [List.nil_append] at hup
      rw [← hup] at hmiss
      exact ⟨Bool.noConfusion, fun _ r v hv => not_isMagnitude_of_isLongest hwhole hmiss hv⟩

/-! ### Signs and leading separators -/

theorem exists_takes_sign (hf : f.IsUnambiguous) (s : Scanner) :
    ∃ sign : Option Char, f.Takes false s sign.toList (f.takeSign s) ∧
      (∀ c ∈ sign, f.sign.contains c = true) ∧
      (sign = none → f.sign.covers s.upcoming.chars.head? = false) := by
  rw [takeSign]
  split
  · rename_i hin
    obtain ⟨c, hc, hsign⟩ := exists_of_isIn hin
    refine ⟨some c, Takes.keep hc (hf.sign_separator c hsign), ?_,
      fun h => absurd h (Option.some_ne_none c)⟩
    rintro _ ⟨⟩
    exact hsign
  · rename_i hout
    rw [isIn_eq_covers] at hout
    exact ⟨none, .refl f s, fun c hc => absurd hc (Option.not_mem_none c),
      fun _ => Bool.eq_false_iff.mpr hout⟩

theorem exists_takes_lead (f : Numeral) (s : Scanner) :
    ∃ lead : Option Char, f.Takes false s lead.toList (f.passLeadingSeparator s) ∧
      (∀ c ∈ lead, f.leadingSeparator = true ∧ f.separator.contains c = true ∧
        f.digit.covers (f.passLeadingSeparator s).upcoming.chars.head? = true) ∧
      (lead = none → f.leadingSeparator = true →
        f.separator.covers s.upcoming.chars.head? = true →
          f.digit.covers s.upcoming.chars[1]? = false) := by
  rw [passLeadingSeparator]
  split
  · rename_i hlead
    rw [Bool.and_eq_true, Bool.and_eq_true, ← isIn_apply (.inr rfl)] at hlead
    obtain ⟨⟨hleading, hin⟩, hdigit⟩ := hlead
    obtain ⟨c, hc, hseparator⟩ := exists_of_isIn hin
    refine ⟨some c, Takes.skip hc hseparator, ?_,
      fun h => absurd h (Option.some_ne_none c)⟩
    rintro _ ⟨⟩
    rw [← isIn_eq_covers]
    exact ⟨hleading, hseparator, hdigit⟩
  · rename_i hlead
    refine ⟨none, .refl f s, fun c hc => absurd hc (Option.not_mem_none c),
      fun _ hleading hseparator => ?_⟩
    rw [hleading, isIn_eq_covers, hseparator, followingIn_eq_covers, Bool.true_and,
      Bool.true_and] at hlead
    exact Bool.eq_false_iff.mpr hlead

/-- What comes before the first digit of a number is no digit. -/
theorem covers_getLast?_of_isFresh (hf : f.IsUnambiguous) (hs : s.IsFresh) {sign lead : Option Char}
    (hsign : ∀ c ∈ sign, f.sign.contains c = true)
    (hlead : ∀ c ∈ lead, f.separator.contains c = true) :
    f.digit.covers (s.draft.literal ++ (sign.toList ++ lead.toList)).getLast? = false := by
  refine Bool.eq_false_iff.mpr fun hcovers => ?_
  obtain ⟨c, hc, hdigit⟩ := (Option.any_eq_true _ _).mp hcovers
  have hmem := List.mem_of_getLast? hc
  rw [hs.1, Draft.literal_empty, List.nil_append, List.mem_append, Option.mem_toList,
    Option.mem_toList] at hmem
  rcases hmem with hmem | hmem
  · exact hf.sign_digit c (hsign c hmem) hdigit
  · exact hf.digit_separator c hdigit (hlead c hmem)

/-- The longest number is taken. There is none if the number fails. -/
theorem exists_takes_core (hf : f.IsUnambiguous) (hs : s.IsFresh) :
    ((f.core (f.takeSign s)).1 = true → ∃ real w, f.IsNumber real w ∧
      f.Takes real (s.setKind f.integerKind) w (f.core (f.takeSign s)).2 ∧
      ∀ r v, f.IsNumber r v → v <+: s.upcoming.chars → v <+: w ∧ (v = w → r = real)) ∧
    ((f.core (f.takeSign s)).1 = false → ∀ r v, f.IsNumber r v → ¬v <+: s.upcoming.chars) := by
  obtain ⟨sign, hsign, hsigned, hunsigned⟩ := exists_takes_sign hf s
  obtain ⟨lead, hlead, hled, hunled⟩ :=
    exists_takes_lead f ((f.takeSign s).setKind f.integerKind)
  have hbefore := (hsign.setKind f.integerKind).trans hlead
  have hup : s.upcoming.chars = sign.toList ++ (lead.toList ++ _) :=
    hbefore.upcoming_eq.trans (List.append_assoc ..)
  have hsplit {r : Bool} {v : List Char} (hv : f.IsNumber r v) (hv' : v <+: s.upcoming.chars) := by
    refine hv.exists_magnitude hf hsigned ?_ (fun c hc => (hled c hc).2.1) ?_ (hup ▸ hv')
    · intro hnone
      have hhead := hunsigned hnone
      rwa [hup, hnone] at hhead
    · intro hnone
      have hnext := hunled hnone
      rwa [hlead.upcoming_eq, hnone] at hnext
  have hlast : f.digit.covers
      ((f.passLeadingSeparator ((f.takeSign s).setKind f.integerKind)).peek? (-1)) = false := by
    rw [peek?_neg_one, hbefore.consumes.literal]
    exact covers_getLast?_of_isFresh hf hs hsigned fun c hc => (hled c hc).2.1
  obtain ⟨hfound, hmissed⟩ := exists_takes_body hf hlast
  rw [core]
  constructor
  · intro h
    obtain ⟨real, m, hm, hmagnitude, hlongest⟩ := hfound h
    refine ⟨real, sign.toList ++ (lead.toList ++ m), .intro hsigned ?_ hmagnitude, ?_, ?_⟩
    · intro c hc
      obtain ⟨hleading, hseparator, hdigit⟩ := hled c hc
      obtain ⟨d, m, rfl, -⟩ := hmagnitude.exists_first
      rw [hm.upcoming_eq] at hdigit
      exact ⟨hleading, hseparator, hdigit⟩
    · rw [← List.append_assoc]
      exact hbefore.trans hm
    · intro r v hv hv'
      obtain ⟨w, rfl, hw, hbegins⟩ := hsplit hv hv'
      have hwm := hlongest r w hw hbegins
      constructor
      · rw [List.prefix_append_right_inj, List.prefix_append_right_inj]
        exact hwm
      · intro hsame
        obtain rfl := List.append_cancel_left (List.append_cancel_left hsame)
        rw [hw.real_eq hf, hmagnitude.real_eq hf]
  · intro h r v hv hv'
    obtain ⟨w, -, hw, hbegins⟩ := hsplit hv hv'
    exact hmissed h r w hw hbegins

/-! ### The rule -/

theorem eval_number_alone (f : Numeral) (flags : Flags) (s : Scanner) :
    (Rule.number f none []).eval flags s =
      .ok (if (f.core (f.takeSign s)).1 then (true, (f.core (f.takeSign s)).2.setKind? f.kind)
        else (false, (f.core (f.takeSign s)).2.rewind)) := by
  rw [Rule.eval_number]
  change (if !(f.core (f.takeSign s)).1 then Except.ok (false, (f.core (f.takeSign s)).2.rewind)
    else Except.ok (true, (f.core (f.takeSign s)).2.setKind? f.kind)) = _
  cases (f.core (f.takeSign s)).1 <;> rfl

/-- Let the classes of the parts of a number have nothing in common, and let the number have neither
lead nor suffix. Where a token begins, the rule matches if, and only if, the text begins with a
number. It then consumes the longest one. The value is that text without its separators, and the
kind is the one of the rule if there is one, and otherwise that of reals if there is a decimal
separator or an exponent, and that of integers if not. If the rule does not match, everything is
given back. -/
theorem takes_longest_number (f : Numeral) (hf : f.IsUnambiguous) (flags : Flags) (s : Scanner)
    (hs : s.IsFresh) :
    ∃ matched t, (Rule.number f none []).eval flags s = .ok (matched, t) ∧
      (matched = true ↔ ∃ real w, f.IsNumber real w ∧ w <+: s.upcoming.chars) ∧
      (matched = false → s.Restores t) ∧
      (matched = true → ∃ real w, f.IsNumber real w ∧ s.Consumes w t ∧
        (∀ r v, f.IsNumber r v → v <+: s.upcoming.chars →
          v.length ≤ w.length ∧ (v = w → r = real)) ∧
        t.draft.value = Utf8.encode (w.filter fun c => !f.separator.contains c) ∧
        t.draft.kind = f.kind.getD (if real then f.realKind else f.integerKind) ∧
        t.draft.diagnostics = #[]) := by
  obtain ⟨hfound, hmissed⟩ := exists_takes_core hf hs
  rw [eval_number_alone]
  by_cases hseen : (f.core (f.takeSign s)).1 = true
  · obtain ⟨real, w, hnumber, htakes, hlongest⟩ := hfound hseen
    have hconsumes : s.Consumes w (f.core (f.takeSign s)).2 :=
      ((Consumes.refl s).setKind _).trans htakes.consumes
    have hempty : (s.setKind f.integerKind).draft.value = [] := by
      rw [show (s.setKind f.integerKind).draft.value = s.draft.value from rfl, hs.1,
        Draft.value_empty]
    rw [if_pos hseen]
    refine ⟨true, _, rfl, ⟨fun _ => ⟨real, w, hnumber, _, htakes.upcoming_eq.symm⟩, fun _ => rfl⟩,
      Bool.noConfusion, fun _ => ⟨real, w, hnumber, hconsumes.setKind? f.kind, ?_, ?_, ?_, ?_⟩⟩
    · intro r v hv hv'
      obtain ⟨hvw, hreal⟩ := hlongest r v hv hv'
      exact ⟨hvw.length_le, hreal⟩
    · rw [value_setKind?, htakes.value, hempty, List.nil_append]
    · rw [kind_setKind?, htakes.kind]
      rfl
    · rw [diagnostics_setKind?, htakes.diagnostics]
      exact congrArg Draft.diagnostics hs.1
  · obtain ⟨v, hv⟩ := f.assembles_takeSign (fun _ => True) s
    obtain ⟨w, hw, -⟩ : Reads (fun _ => True) false (f.takeSign s) (f.core (f.takeSign s)) :=
      reads_core ⟨trivial, trivial, fun _ _ => trivial⟩ _
    rw [if_neg hseen]
    refine ⟨false, _, rfl, ⟨Bool.noConfusion, ?_⟩,
      fun _ => (hv.trans hw).consumes.restores_rewind hs, Bool.noConfusion⟩
    rintro ⟨real, w, hnumber, hbegins⟩
    exact absurd hbegins (hmissed (Bool.eq_false_iff.mpr hseen) real w hnumber)

/-- Binary numbers with all parts. -/
def binarySample : Numeral where
  digit := .set ['0', '1']
  sign := .set ['-']
  separator := .set ['_']
  point := .set ['.']
  exponent := .set ['e']
  exponentSign := .set ['-']
  leadingZero := false

theorem isUnambiguous_binarySample : binarySample.IsUnambiguous := by
  have hset {cs : List Char} {k : CharClass} (h : cs.all (!k.contains ·) = true) :
      (CharClass.set cs).IsApart k := by
    intro c hc hk
    rw [CharClass.contains, List.contains_iff_mem] at hc
    have hout := List.all_eq_true.mp h c hc
    rw [hk] at hout
    exact Bool.false_ne_true hout
  refine ⟨?_, ?_, ?_, ?_, ?_, ?_, ?_, ?_, ?_, ?_, ?_, fun _ => rfl⟩
  all_goals exact hset (by decide)

/-- A source with a number after which a separator stands. -/
def numberSample : ByteSource :=
  { reads := [.bytes [0x2D, 0x31, 0x5F, 0x30, 0x2E, 0x65, 0x2D, 0x31, 0x5F]] }

/-- The number goes up to the separator, which has no digit after it. -/
theorem takes_longest_number_numberSample :
    binarySample.IsUnambiguous ∧ (ofSource "f" numberSample).IsFresh ∧
    ∃ t real w, (Rule.number binarySample none []).eval .off (ofSource "f" numberSample) =
        .ok (true, t) ∧ binarySample.IsNumber real w ∧
      (ofSource "f" numberSample).Consumes w t ∧ "-1_0.e-1".toList.length ≤ w.length := by
  have hfresh := isFresh_ofSource "f" numberSample
  refine ⟨isUnambiguous_binarySample, hfresh, ?_⟩
  have hnumber : binarySample.IsNumber true "-1_0.e-1".toList := by
    have hrun : binarySample.IsRun ['1', '_', '0'] := .separated rfl rfl (.digit rfl)
    have hwhole : binarySample.IsWhole ['1', '_', '0'] := ⟨hrun, fun _ h => absurd h (by decide)⟩
    have hscale : binarySample.IsExponent ['e', '-', '1'] := .signed rfl rfl (.digit rfl)
    have hmagnitude := IsMagnitude.scaled (.openFraction rfl hwhole (p := '.') rfl) hscale
    have hsign : ∀ c ∈ some '-', binarySample.sign.contains c = true := by
      rintro c ⟨⟩
      rfl
    exact @IsNumber.intro _ (some '-') none _ _ hsign
      (fun c hc => absurd hc (Option.not_mem_none c)) hmagnitude
  have hbegins : "-1_0.e-1".toList <+: (ofSource "f" numberSample).upcoming.chars := ⟨['_'], rfl⟩
  obtain ⟨matched, t, heval, hmatched, -, hlongest⟩ :=
    takes_longest_number binarySample isUnambiguous_binarySample .off _ hfresh
  obtain rfl : matched = true := hmatched.mpr ⟨true, _, hnumber, hbegins⟩
  obtain ⟨real, w, hw, hconsumes, hmax, -⟩ := hlongest rfl
  exact ⟨t, real, w, heval, hw, hconsumes, (hmax true _ hnumber hbegins).1⟩

end Numeral

end Lexing
