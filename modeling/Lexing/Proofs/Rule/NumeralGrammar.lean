import Lexing.Rule.Numeral

/-!
# The grammar of numbers

A number has a sign, a separator before its first digit, digits, a fraction and an exponent, most of
which may be missing. If the classes of code points that the parts begin with have nothing in
common, the parts of a number are found one after another, each of them as long as possible: no
number is missed, and no longer one stands in the text.

## Main definitions

* `Numeral.IsNumber` : the grammar.
* `Numeral.IsUnambiguous` : the classes of the parts have nothing in common.
* `IsLongest` : the longest text of a language at the beginning of a text.

## Main results

* `Numeral.isLongest_run_single`, `Numeral.isLongest_run_more`, `Numeral.isLongest_run_separated` :
  digits one after another.
* `Numeral.IsMagnitude.exists_parts`, `Numeral.HasParts.isMagnitude` : the parts of a number.
* `Numeral.HasParts.append_begins` : the longest parts make the longest number.
-/

namespace Lexing

/-! ### Longest texts -/

/-- The text begins with `w`, which is in the language or empty, and with no text of the language
that is longer. -/
structure IsLongest (L : List Char → Prop) (text w : List Char) : Prop where
  mem : w ≠ [] → L w
  begins : w <+: text
  longest : ∀ v, L v → v <+: text → v <+: w

theorem isLongest_nil {L : List Char → Prop} {text : List Char} (h : ∀ v, L v → ¬v <+: text) :
    IsLongest L text [] :=
  ⟨fun hne => absurd rfl hne, List.nil_prefix, fun v hv hbegins => absurd hbegins (h v hv)⟩

theorem head?_eq_of_begins {v text : List Char} {c : Char} {u : List Char} (hv : v = c :: u)
    (h : v <+: text) : text.head? = some c := by
  obtain ⟨rest, rfl⟩ := h
  rw [hv]
  rfl

/-- What follows a text of the language is sought after the longest one, if it cannot begin within
that. -/
theorem IsLongest.append {L : List Char → Prop} {text rest w y v x : List Char}
    (h : IsLongest L text w) (htext : text = w ++ rest) (hv : L v) (hbegins : v ++ x <+: text)
    (hwithin : ∀ c u u', x = c :: u → w ≠ v ++ c :: u')
    (hrest : w = v → x <+: rest → x <+: y) : v ++ x <+: w ++ y := by
  obtain ⟨u, rfl⟩ := h.longest v hv ((List.prefix_append v x).trans hbegins)
  rw [htext, List.append_assoc, List.prefix_append_right_inj] at hbegins
  rw [List.append_assoc, List.prefix_append_right_inj]
  cases u with
  | nil => exact hrest (List.append_nil v) hbegins
  | cons d u =>
    cases x with
    | nil => exact List.nil_prefix
    | cons c x =>
      obtain ⟨rfl, -⟩ := List.cons_prefix_cons.mp hbegins
      exact absurd rfl (hwithin c x u rfl)

/-! ### The grammar -/

/-- No code point belongs to both classes. -/
def CharClass.IsApart (k l : CharClass) : Prop :=
  ∀ c, k.contains c = true → l.contains c = true → False

namespace Numeral

/-- The classes of the parts of a number have nothing in common where they could be taken for each
other. If no digits may follow a leading zero, it is a digit. -/
structure IsUnambiguous (f : Numeral) : Prop where
  digit_separator : f.digit.IsApart f.separator
  digit_point : f.digit.IsApart f.point
  digit_exponent : f.digit.IsApart f.exponent
  separator_point : f.separator.IsApart f.point
  separator_exponent : f.separator.IsApart f.exponent
  point_exponent : f.point.IsApart f.exponent
  sign_digit : f.sign.IsApart f.digit
  sign_separator : f.sign.IsApart f.separator
  sign_point : f.sign.IsApart f.point
  exponentSign_digit : f.exponentSign.IsApart f.digit
  exponentSign_separator : f.exponentSign.IsApart f.separator
  zero : f.leadingZero = false → f.digit.contains '0' = true

/-- Digits, at least one, of which any two neighbours may have one separator between them. -/
inductive IsRun (f : Numeral) : List Char → Prop
  | digit {c} (hc : f.digit.contains c = true) : IsRun f [c]
  | more {c w} (hc : f.digit.contains c = true) (hw : IsRun f w) : IsRun f (c :: w)
  | separated {c d w} (hc : f.digit.contains c = true) (hd : f.separator.contains d = true)
      (hw : IsRun f w) : IsRun f (c :: d :: w)

/-- The digits before a fraction. Where no digits may follow a leading zero, it stands alone. -/
def IsWhole (f : Numeral) (w : List Char) : Prop :=
  f.IsRun w ∧ (f.leadingZero = false → w.head? = some '0' → w = ['0'])

/-- Digits and a fraction, of which one may be missing. The flag says whether there is a decimal
separator. -/
inductive IsMantissa (f : Numeral) : Bool → List Char → Prop
  | whole {w} (hw : f.IsWhole w) : IsMantissa f false w
  | fraction {w p v} (hw : f.IsWhole w) (hp : f.point.contains p = true) (hv : f.IsRun v) :
      IsMantissa f true (w ++ p :: v)
  | openFraction {w p} (hempty : f.emptyParts = true) (hw : f.IsWhole w)
      (hp : f.point.contains p = true) : IsMantissa f true (w ++ [p])
  | bareFraction {p v} (hempty : f.emptyParts = true) (hp : f.point.contains p = true)
      (hv : f.IsRun v) : IsMantissa f true (p :: v)

/-- An exponent, whose digits may have a sign. -/
inductive IsExponent (f : Numeral) : List Char → Prop
  | unsigned {e w} (he : f.exponent.contains e = true) (hw : f.IsRun w) : IsExponent f (e :: w)
  | signed {e x w} (he : f.exponent.contains e = true) (hx : f.exponentSign.contains x = true)
      (hw : f.IsRun w) : IsExponent f (e :: x :: w)

/-- A number without its sign. The flag says whether there is a decimal separator or an exponent. -/
inductive IsMagnitude (f : Numeral) : Bool → List Char → Prop
  | mantissa {real m} (hm : f.IsMantissa real m) : IsMagnitude f real m
  | scaled {real m x} (hm : f.IsMantissa real m) (hx : f.IsExponent x) :
      IsMagnitude f true (m ++ x)

/-- A number. A separator may stand before its first digit if that is allowed, and so not before a
fraction without digits before it. -/
inductive IsNumber (f : Numeral) : Bool → List Char → Prop
  | intro {sign lead : Option Char} {real w} (hsign : ∀ c ∈ sign, f.sign.contains c = true)
      (hlead : ∀ c ∈ lead, f.leadingSeparator = true ∧ f.separator.contains c = true ∧
        f.digit.covers w.head? = true)
      (hw : f.IsMagnitude real w) : IsNumber f real (sign.toList ++ (lead.toList ++ w))

variable {f : Numeral} {text w : List Char} {c d : Char}

/-! ### Runs -/

/-- A run begins with a digit. -/
theorem IsRun.exists_digit (h : f.IsRun w) : ∃ c v, w = c :: v ∧ f.digit.contains c = true := by
  cases h with
  | digit hc => exact ⟨_, _, rfl, hc⟩
  | more hc _ => exact ⟨_, _, rfl, hc⟩
  | separated hc _ _ => exact ⟨_, _, rfl, hc⟩

theorem IsRun.contains_of_mem (h : f.IsRun w) (hc : c ∈ w) :
    f.digit.contains c = true ∨ f.separator.contains c = true := by
  induction h with
  | digit hd =>
    rw [List.mem_singleton.mp hc]
    exact .inl hd
  | more hd _ ih =>
    rcases List.mem_cons.mp hc with rfl | hc
    · exact .inl hd
    · exact ih hc
  | separated hd hsep _ ih =>
    rcases List.mem_cons.mp hc with rfl | hc
    · exact .inl hd
    · rcases List.mem_cons.mp hc with rfl | hc
      · exact .inr hsep
      · exact ih hc

/-- Neither a decimal separator nor an exponent begins within a run. -/
theorem IsRun.not_mark_of_mem (hf : f.IsUnambiguous) (h : f.IsRun w) (hc : c ∈ w) :
    ¬(f.point.contains c = true ∨ f.exponent.contains c = true) := by
  intro hmark
  rcases h.contains_of_mem hc with hdigit | hseparator
  · exact hmark.elim (hf.digit_point c hdigit) (hf.digit_exponent c hdigit)
  · exact hmark.elim (hf.separator_point c hseparator) (hf.separator_exponent c hseparator)

/-- A run at the beginning of a text that begins with `c`. -/
theorem IsRun.cases_of_begins {v : List Char} (h : f.IsRun v) (hbegins : v <+: c :: text) :
    f.digit.contains c = true ∧ (v = [c] ∨ (∃ u, v = c :: u ∧ f.IsRun u ∧ u <+: text) ∨
      ∃ d u, v = c :: d :: u ∧ f.separator.contains d = true ∧ f.IsRun u ∧ d :: u <+: text) := by
  cases h with
  | digit hc =>
    obtain ⟨rfl, -⟩ := List.cons_prefix_cons.mp hbegins
    exact ⟨hc, .inl rfl⟩
  | more hc hu =>
    obtain ⟨rfl, hu'⟩ := List.cons_prefix_cons.mp hbegins
    exact ⟨hc, .inr (.inl ⟨_, rfl, hu, hu'⟩)⟩
  | separated hc hd hu =>
    obtain ⟨rfl, hu'⟩ := List.cons_prefix_cons.mp hbegins
    exact ⟨hc, .inr (.inr ⟨_, _, rfl, hd, hu, hu'⟩)⟩

/-- No run begins without a digit. -/
theorem isLongest_run_nil (h : f.digit.covers text.head? = false) : IsLongest f.IsRun text [] := by
  refine isLongest_nil fun v hv hbegins => ?_
  obtain ⟨c, u, rfl, hc⟩ := hv.exists_digit
  rw [head?_eq_of_begins rfl hbegins] at h
  exact absurd hc (Bool.eq_false_iff.mp h)

/-- A digit is the whole run if neither a digit nor a separator and a digit follow. -/
theorem isLongest_run_single (hc : f.digit.contains c = true)
    (hdigit : f.digit.covers text.head? = false)
    (hseparator : f.separator.covers text.head? = true → f.digit.covers text[1]? = false) :
    IsLongest f.IsRun (c :: text) [c] := by
  refine ⟨fun _ => .digit hc, by simp, fun v hv hbegins => ?_⟩
  obtain ⟨-, rfl | ⟨u, rfl, hu, hbegins⟩ | ⟨d, u, rfl, hd, hu, hbegins⟩⟩ :=
    hv.cases_of_begins hbegins
  · exact List.prefix_rfl
  · obtain ⟨e, u, rfl, he⟩ := hu.exists_digit
    rw [head?_eq_of_begins rfl hbegins] at hdigit
    exact absurd he (Bool.eq_false_iff.mp hdigit)
  · obtain ⟨e, u, rfl, he⟩ := hu.exists_digit
    obtain ⟨rest, rfl⟩ := hbegins
    exact absurd he (Bool.eq_false_iff.mp (hseparator hd))

/-- A digit goes on with the longest run after it. -/
theorem isLongest_run_more (hf : f.IsUnambiguous) (hc : f.digit.contains c = true)
    (h : IsLongest f.IsRun (d :: text) (d :: w)) :
    IsLongest f.IsRun (c :: d :: text) (c :: d :: w) := by
  have hrun := h.mem (List.cons_ne_nil d w)
  refine ⟨fun _ => .more hc hrun, List.cons_prefix_cons.mpr ⟨rfl, h.begins⟩, fun v hv hbegins => ?_⟩
  obtain ⟨-, rfl | ⟨u, rfl, hu, hbegins⟩ | ⟨e, u, rfl, he, -, hbegins⟩⟩ :=
    hv.cases_of_begins hbegins
  · exact ⟨d :: w, rfl⟩
  · exact List.cons_prefix_cons.mpr ⟨rfl, h.longest u hu hbegins⟩
  · obtain ⟨rfl, -⟩ := List.cons_prefix_cons.mp hbegins
    obtain ⟨_, _, heq, hdigit⟩ := hrun.exists_digit
    obtain ⟨rfl, -⟩ := List.cons.inj heq
    exact (hf.digit_separator _ hdigit he).elim

/-- A digit goes on with a separator and the longest run after it. -/
theorem isLongest_run_separated (hf : f.IsUnambiguous) {e : Char}
    (hc : f.digit.contains c = true) (hd : f.separator.contains d = true)
    (h : IsLongest f.IsRun (e :: text) (e :: w)) :
    IsLongest f.IsRun (c :: d :: e :: text) (c :: d :: e :: w) := by
  have hrun := h.mem (List.cons_ne_nil e w)
  refine ⟨fun _ => .separated hc hd hrun, ?_, fun v hv hbegins => ?_⟩
  · exact List.cons_prefix_cons.mpr ⟨rfl, List.cons_prefix_cons.mpr ⟨rfl, h.begins⟩⟩
  · obtain ⟨-, rfl | ⟨u, rfl, hu, hbegins⟩ | ⟨_, u, rfl, -, hu, hbegins⟩⟩ :=
      hv.cases_of_begins hbegins
    · exact ⟨d :: e :: w, rfl⟩
    · exact (hf.digit_separator d (hu.cases_of_begins hbegins).1 hd).elim
    · obtain ⟨rfl, hrest⟩ := List.cons_prefix_cons.mp hbegins
      exact List.cons_prefix_cons.mpr
        ⟨rfl, List.cons_prefix_cons.mpr ⟨rfl, h.longest u hu hrest⟩⟩

/-! ### Digits before a fraction -/

/-- The longest run is the longest text of digits before a fraction, unless digits follow a leading
zero that should stand alone. -/
theorem isLongest_whole_of_run (h : IsLongest f.IsRun text w)
    (hzero : f.leadingZero = false → text.head? = some '0' → w = ['0']) :
    IsLongest f.IsWhole text w where
  mem hne := by
    refine ⟨h.mem hne, fun hleading hhead => hzero hleading ?_⟩
    obtain ⟨c, u, rfl⟩ := List.exists_cons_of_ne_nil hne
    rw [head?_eq_of_begins rfl h.begins, ← hhead, List.head?_cons]
  begins := h.begins
  longest v hv hbegins := h.longest v hv.1 hbegins

/-- A zero that stands alone is all. -/
theorem isLongest_whole_zero (hf : f.IsUnambiguous) (hleading : f.leadingZero = false) :
    IsLongest f.IsWhole ('0' :: text) ['0'] where
  mem _ := ⟨.digit (hf.zero hleading), fun _ _ => rfl⟩
  begins := by simp
  longest v hv hbegins := by
    obtain ⟨c, u, rfl, -⟩ := hv.1.exists_digit
    obtain ⟨rfl, -⟩ := List.cons_prefix_cons.mp hbegins
    exact (hv.2 hleading rfl).symm ▸ List.prefix_rfl

/-! ### Fractions and exponents -/

/-- A fraction, after digits if `seen`. -/
inductive IsFraction (f : Numeral) (seen : Bool) : List Char → Prop
  | digits {p v} (hseen : seen = true ∨ f.emptyParts = true) (hp : f.point.contains p = true)
      (hv : f.IsRun v) : IsFraction f seen (p :: v)
  | point {p} (hseen : seen = true) (hempty : f.emptyParts = true)
      (hp : f.point.contains p = true) : IsFraction f seen [p]

variable {seen : Bool}

theorem IsFraction.exists_point (h : f.IsFraction seen w) :
    ∃ p v, w = p :: v ∧ f.point.contains p = true ∧ (v ≠ [] → f.IsRun v) := by
  cases h with
  | digits _ hp hv => exact ⟨_, _, rfl, hp, fun _ => hv⟩
  | point _ _ hp => exact ⟨_, _, rfl, hp, fun hne => absurd rfl hne⟩

theorem IsExponent.exists_exponent (h : f.IsExponent w) :
    ∃ e v, w = e :: v ∧ f.exponent.contains e = true := by
  cases h with
  | unsigned he _ => exact ⟨_, _, rfl, he⟩
  | signed he _ _ => exact ⟨_, _, rfl, he⟩

/-- What stands next where a fraction begins. -/
theorem IsFraction.begins (h : f.IsFraction seen w) (hbegins : w <+: text) :
    f.point.covers text.head? = true ∧
      (f.emptyParts = true ∨ seen = true ∧ f.digit.covers text[1]? = true) := by
  obtain ⟨rest, rfl⟩ := hbegins
  cases h with
  | digits hseen hp hv =>
    obtain ⟨c, u, rfl, hc⟩ := hv.exists_digit
    exact ⟨hp, hseen.symm.imp_right (⟨·, hc⟩)⟩
  | point _ hempty hp => exact ⟨hp, .inl hempty⟩

theorem IsFraction.prefix_cons {p : Char} {v : List Char} (h : f.IsFraction seen w)
    (hbegins : w <+: p :: text) (hv : IsLongest f.IsRun text v) : w <+: p :: v := by
  cases h with
  | digits _ _ hrun =>
    obtain ⟨rfl, hrest⟩ := List.cons_prefix_cons.mp hbegins
    exact List.cons_prefix_cons.mpr ⟨rfl, hv.longest _ hrun hrest⟩
  | point _ _ _ =>
    obtain ⟨rfl, -⟩ := List.cons_prefix_cons.mp hbegins
    exact ⟨v, rfl⟩

/-- What stands next where an exponent begins. -/
theorem IsExponent.begins (h : f.IsExponent w) (hbegins : w <+: text) :
    f.exponent.covers text.head? = true ∧ (f.digit.covers text[1]? = true ∨
      f.exponentSign.covers text[1]? = true ∧ f.digit.covers text[2]? = true) := by
  obtain ⟨rest, rfl⟩ := hbegins
  cases h with
  | unsigned he hw =>
    obtain ⟨c, u, rfl, hc⟩ := hw.exists_digit
    exact ⟨he, .inl hc⟩
  | signed he hx hw =>
    obtain ⟨c, u, rfl, hc⟩ := hw.exists_digit
    exact ⟨he, .inr ⟨hx, hc⟩⟩

/-- An exponent with the longest run after its sign. -/
theorem isLongest_exponent_signed (hf : f.IsUnambiguous) (hc : f.exponent.contains c = true)
    (hd : f.exponentSign.contains d = true) (hne : w ≠ []) (hw : IsLongest f.IsRun text w) :
    IsLongest f.IsExponent (c :: d :: text) (c :: d :: w) where
  mem _ := .signed hc hd (hw.mem hne)
  begins := List.cons_prefix_cons.mpr ⟨rfl, List.cons_prefix_cons.mpr ⟨rfl, hw.begins⟩⟩
  longest v hv hbegins := by
    cases hv with
    | unsigned _ hrun =>
      obtain ⟨-, hrest⟩ := List.cons_prefix_cons.mp hbegins
      exact (hf.exponentSign_digit d hd (hrun.cases_of_begins hrest).1).elim
    | signed _ _ hrun =>
      obtain ⟨rfl, hrest⟩ := List.cons_prefix_cons.mp hbegins
      obtain ⟨rfl, hdigits⟩ := List.cons_prefix_cons.mp hrest
      exact List.cons_prefix_cons.mpr
        ⟨rfl, List.cons_prefix_cons.mpr ⟨rfl, hw.longest _ hrun hdigits⟩⟩

/-- An exponent with the longest run where there is no sign. -/
theorem isLongest_exponent_unsigned (hc : f.exponent.contains c = true)
    (hsign : f.exponentSign.covers text.head? = false) (hne : w ≠ [])
    (hw : IsLongest f.IsRun text w) : IsLongest f.IsExponent (c :: text) (c :: w) where
  mem _ := .unsigned hc (hw.mem hne)
  begins := List.cons_prefix_cons.mpr ⟨rfl, hw.begins⟩
  longest v hv hbegins := by
    cases hv with
    | unsigned _ hrun =>
      obtain ⟨rfl, hrest⟩ := List.cons_prefix_cons.mp hbegins
      exact List.cons_prefix_cons.mpr ⟨rfl, hw.longest _ hrun hrest⟩
    | signed _ hx _ =>
      obtain ⟨-, hrest⟩ := List.cons_prefix_cons.mp hbegins
      rw [head?_eq_of_begins rfl hrest] at hsign
      exact absurd hx (Bool.eq_false_iff.mp hsign)

/-! ### Numbers without sign -/

/-- The digits before a fraction, the fraction and the exponent of a number. Digits stand before or
after the decimal separator. -/
structure HasParts (f : Numeral) (w y x : List Char) : Prop where
  whole : w ≠ [] → f.IsWhole w
  fraction : y ≠ [] → f.IsFraction (!w.isEmpty) y
  exponent : x ≠ [] → f.IsExponent x
  digits : w ≠ [] ∨ y ≠ []

theorem IsWhole.isEmpty_eq (h : f.IsWhole w) : w.isEmpty = false := by
  obtain ⟨c, v, rfl, -⟩ := h.1.exists_digit
  rfl

theorem IsMantissa.exists_parts {real : Bool} (h : f.IsMantissa real w) :
    ∃ v y, w = v ++ y ∧ real = !y.isEmpty ∧ ∀ x, (x ≠ [] → f.IsExponent x) → f.HasParts v y x := by
  cases h with
  | whole hw =>
    have hne : w ≠ [] := List.isEmpty_eq_false_iff.mp hw.isEmpty_eq
    exact ⟨w, [], (List.append_nil w).symm, rfl,
      fun x hx => ⟨fun _ => hw, fun h => absurd rfl h, hx, .inl hne⟩⟩
  | @fraction v p u hw hp hu =>
    refine ⟨v, p :: u, rfl, rfl,
      fun x hx => ⟨fun _ => hw, fun _ => ?_, hx, .inr (List.cons_ne_nil p u)⟩⟩
    exact .digits (.inl (by rw [hw.isEmpty_eq, Bool.not_false])) hp hu
  | @openFraction v p hempty hw hp =>
    refine ⟨v, [p], rfl, rfl,
      fun x hx => ⟨fun _ => hw, fun _ => ?_, hx, .inr (List.cons_ne_nil p [])⟩⟩
    exact .point (by rw [hw.isEmpty_eq, Bool.not_false]) hempty hp
  | @bareFraction p u hempty hp hu =>
    refine ⟨[], p :: u, rfl, rfl,
      fun x hx => ⟨fun h => absurd rfl h, fun _ => ?_, hx, .inr (List.cons_ne_nil p u)⟩⟩
    exact .digits (.inr hempty) hp hu

/-- The parts of a number without sign. -/
theorem IsMagnitude.exists_parts {real : Bool} {v : List Char} (h : f.IsMagnitude real v) :
    ∃ w y x, v = w ++ (y ++ x) ∧ real = (!y.isEmpty || !x.isEmpty) ∧ f.HasParts w y x := by
  cases h with
  | mantissa hm =>
    obtain ⟨w, y, rfl, rfl, hparts⟩ := hm.exists_parts
    exact ⟨w, y, [], by simp, by simp, hparts [] fun h => absurd rfl h⟩
  | scaled hm hx =>
    obtain ⟨w, y, rfl, rfl, hparts⟩ := hm.exists_parts
    obtain ⟨e, u, rfl, -⟩ := hx.exists_exponent
    exact ⟨w, y, e :: u, by simp, by simp, hparts _ fun _ => hx⟩

/-- Whether there is a decimal separator or an exponent can be seen from the code points. -/
theorem IsMagnitude.real_eq (hf : f.IsUnambiguous) {real : Bool} {v : List Char}
    (h : f.IsMagnitude real v) :
    real = v.any fun c => f.point.contains c || f.exponent.contains c := by
  obtain ⟨w, y, x, rfl, rfl, hparts⟩ := h.exists_parts
  have hwhole : (w.any fun c => f.point.contains c || f.exponent.contains c) = false := by
    refine List.any_eq_false.mpr fun c hc hmark => ?_
    have hrun := (hparts.whole (List.ne_nil_of_mem hc)).1
    exact hrun.not_mark_of_mem hf hc (Bool.or_eq_true_iff.mp hmark)
  rw [List.any_append, hwhole, Bool.false_or, List.any_append]
  cases y with
  | nil =>
    cases x with
    | nil => rfl
    | cons e x =>
      obtain ⟨_, _, heq, he⟩ := (hparts.exponent (List.cons_ne_nil e x)).exists_exponent
      obtain ⟨rfl, -⟩ := List.cons.inj heq
      simp [he]
  | cons p y =>
    obtain ⟨_, _, heq, hp, -⟩ := (hparts.fraction (List.cons_ne_nil p y)).exists_point
    obtain ⟨rfl, -⟩ := List.cons.inj heq
    simp [hp]

/-- Parts make a number without sign. -/
theorem HasParts.isMagnitude {y x : List Char} (h : f.HasParts w y x) :
    f.IsMagnitude (!y.isEmpty || !x.isEmpty) (w ++ (y ++ x)) := by
  have hmantissa : f.IsMantissa (!y.isEmpty) (w ++ y) := by
    cases w with
    | nil =>
      cases h.fraction (h.digits.resolve_left (absurd rfl ·)) with
      | digits hseen hp hv => exact .bareFraction (hseen.resolve_left Bool.false_ne_true) hp hv
      | point hseen _ _ => exact absurd hseen Bool.false_ne_true
    | cons c w =>
      have hw := h.whole (List.cons_ne_nil c w)
      cases y with
      | nil =>
        rw [List.append_nil]
        exact .whole hw
      | cons p y =>
        cases h.fraction (List.cons_ne_nil p y) with
        | digits _ hp hv => exact .fraction hw hp hv
        | point _ hempty hp => exact .openFraction hempty hw hp
  cases x with
  | nil => simpa using IsMagnitude.mantissa hmantissa
  | cons e x =>
    rw [← List.append_assoc, List.isEmpty_cons, Bool.not_false, Bool.or_true]
    exact .scaled hmantissa (h.exponent (List.cons_ne_nil e x))

section Longest

variable {rest rest' y x v z u : List Char}

/-- The longest fraction and the longest exponent after it are not exceeded. -/
theorem fraction_append_begins (hf : f.IsUnambiguous) (hy : IsLongest (f.IsFraction seen) text y)
    (htext : text = y ++ rest) (hx : IsLongest f.IsExponent rest x)
    (hz : z ≠ [] → f.IsFraction seen z) (hu : u ≠ [] → f.IsExponent u) (hbegins : z ++ u <+: text) :
    z ++ u <+: y ++ x := by
  have hexponent (h : u <+: rest) : u <+: x := by
    by_cases hne : u = []
    · exact hne ▸ List.nil_prefix
    · exact hx.longest u (hu hne) h
  by_cases hne : z = []
  · subst hne
    rw [List.nil_append] at hbegins ⊢
    by_cases hnone : u = []
    · exact hnone ▸ List.nil_prefix
    · -- An exponent stands where a fraction would begin, so there is none.
      obtain ⟨e, u', rfl, he⟩ := (hu hnone).exists_exponent
      have hnil : y = [] := by
        refine Decidable.byContradiction fun hfraction => ?_
        obtain ⟨p, y', rfl, hp, -⟩ := (hy.mem hfraction).exists_point
        have hsame := (head?_eq_of_begins rfl hy.begins).symm.trans (head?_eq_of_begins rfl hbegins)
        obtain rfl := Option.some.inj hsame
        exact hf.point_exponent p hp he
      subst hnil
      rw [List.nil_append] at htext ⊢
      exact hexponent (htext ▸ hbegins)
  · refine hy.append htext (hz hne) hbegins ?_ fun _ => hexponent
    intro c u' y' hcons heq
    obtain ⟨e, _, hexp, he⟩ := (hu (hcons ▸ List.cons_ne_nil c u')).exists_exponent
    obtain ⟨rfl, -⟩ := List.cons.inj (hcons.symm.trans hexp)
    obtain ⟨p, z', rfl, -⟩ := (hz hne).exists_point
    obtain ⟨q, y'', hq, -, hrun⟩ := (hy.mem (by simp [heq])).exists_point
    obtain ⟨-, rfl⟩ := List.cons.inj (heq.symm.trans hq)
    -- Within a fraction there are digits and separators only.
    exact (hrun (by simp)).not_mark_of_mem hf (c := c) (by simp) (.inr he)

/-- The longest digits, the longest fraction after them and the longest exponent after that are not
exceeded. -/
theorem HasParts.append_begins (hf : f.IsUnambiguous) (hw : IsLongest f.IsWhole text w)
    (htext : text = w ++ rest) (hy : IsLongest (f.IsFraction (!w.isEmpty)) rest y)
    (hrest : rest = y ++ rest') (hx : IsLongest f.IsExponent rest' x) (h : f.HasParts v z u)
    (hbegins : v ++ (z ++ u) <+: text) : v ++ (z ++ u) <+: w ++ (y ++ x) := by
  have hmore (hwv : w = v) (h' : z ++ u <+: rest) : z ++ u <+: y ++ x :=
    fraction_append_begins hf hy hrest hx (hwv ▸ h.fraction) h.exponent h'
  by_cases hne : v = []
  · subst hne
    obtain ⟨p, z', rfl, hp, -⟩ := (h.fraction (h.digits.resolve_left (absurd rfl ·))).exists_point
    have hnil : w = [] := by
      refine Decidable.byContradiction fun hwhole => ?_
      obtain ⟨c, w', rfl, hc⟩ := (hw.mem hwhole).1.exists_digit
      have hsame := (head?_eq_of_begins rfl hw.begins).symm.trans (head?_eq_of_begins rfl hbegins)
      obtain rfl := Option.some.inj hsame
      exact hf.digit_point c hc hp
    subst hnil
    rw [List.nil_append] at htext hbegins ⊢
    exact hmore rfl (htext ▸ hbegins)
  · refine hw.append htext (h.whole hne) hbegins ?_ hmore
    intro c u' w' hcons heq
    have hrun := (hw.mem (by simp [heq])).1
    have hmark : f.point.contains c = true ∨ f.exponent.contains c = true := by
      by_cases hz : z = []
      · rw [hz, List.nil_append] at hcons
        obtain ⟨e, _, hexp, he⟩ := (h.exponent (hcons ▸ List.cons_ne_nil c u')).exists_exponent
        obtain ⟨rfl, -⟩ := List.cons.inj (hcons.symm.trans hexp)
        exact .inr he
      · obtain ⟨p, z', rfl, hp, -⟩ := (h.fraction hz).exists_point
        obtain ⟨rfl, -⟩ := List.cons.inj hcons
        exact .inl hp
    exact hrun.not_mark_of_mem hf (c := c) (by simp [heq]) hmark

/-- The longest parts make the longest number without sign. -/
theorem isMagnitude_of_isLongest (hf : f.IsUnambiguous) (hw : IsLongest f.IsWhole text w)
    (htext : text = w ++ rest) (hy : IsLongest (f.IsFraction (!w.isEmpty)) rest y)
    (hrest : rest = y ++ rest') (hx : IsLongest f.IsExponent rest' x)
    (hdigits : w ≠ [] ∨ y ≠ []) :
    f.IsMagnitude (!y.isEmpty || !x.isEmpty) (w ++ (y ++ x)) ∧
      ∀ r v, f.IsMagnitude r v → v <+: text → v <+: w ++ (y ++ x) := by
  refine ⟨HasParts.isMagnitude ⟨hw.mem, hy.mem, hx.mem, hdigits⟩, fun r v hv hbegins => ?_⟩
  obtain ⟨v, z, u, rfl, -, hparts⟩ := hv.exists_parts
  exact hparts.append_begins hf hw htext hy hrest hx hbegins

/-- There is no number without sign if there are neither digits nor a fraction. -/
theorem not_isMagnitude_of_isLongest (hw : IsLongest f.IsWhole text [])
    (hfraction : ∀ v, f.IsFraction false v → ¬v <+: text) {r : Bool} (hv : f.IsMagnitude r v) :
    ¬v <+: text := by
  intro hbegins
  obtain ⟨v, z, u, rfl, -, hparts⟩ := hv.exists_parts
  by_cases hne : v = []
  · subst hne
    refine hfraction z (hparts.fraction (hparts.digits.resolve_left (absurd rfl ·))) ?_
    exact (List.prefix_append z u).trans hbegins
  · have hnil := hw.longest v (hparts.whole hne) ((List.prefix_append v _).trans hbegins)
    exact hne (List.prefix_nil.mp hnil)

end Longest

/-! ### Signs and leading separators -/

/-- A number without sign begins with a digit or a decimal separator. -/
theorem IsMagnitude.exists_first {real : Bool} (h : f.IsMagnitude real w) :
    ∃ c v, w = c :: v ∧ (f.digit.contains c = true ∨ f.point.contains c = true) := by
  obtain ⟨w, y, x, rfl, -, hparts⟩ := h.exists_parts
  by_cases hne : w = []
  · subst hne
    obtain ⟨p, y', rfl, hp, -⟩ :=
      (hparts.fraction (hparts.digits.resolve_left (absurd rfl ·))).exists_point
    exact ⟨p, y' ++ x, rfl, .inr hp⟩
  · obtain ⟨c, w', rfl, hc⟩ := (hparts.whole hne).1.exists_digit
    exact ⟨c, w' ++ (y ++ x), rfl, .inl hc⟩

/-- Texts with optional first code points have the same one if it can be told from what else comes
first. -/
theorem option_eq_of_begins {a b : Option Char} {v text : List Char}
    (h : a.toList ++ v <+: b.toList ++ text) (hleft : ∀ c ∈ a, c :: v <+: text → b ≠ none)
    (hright : ∀ c ∈ b, v.head? ≠ some c) (hne : v ≠ []) : a = b ∧ v <+: text := by
  obtain ⟨d, v, rfl⟩ := List.exists_cons_of_ne_nil hne
  cases a with
  | none =>
    cases b with
    | none => exact ⟨rfl, h⟩
    | some c =>
      obtain ⟨rfl, -⟩ := List.cons_prefix_cons.mp h
      exact absurd rfl (hright d rfl)
  | some c =>
    cases b with
    | none => exact absurd rfl (hleft c rfl h)
    | some b =>
      obtain ⟨rfl, hrest⟩ := List.cons_prefix_cons.mp h
      exact ⟨rfl, hrest⟩

/-- The sign and the leading separator of a number are those that the text begins with. -/
theorem IsNumber.exists_magnitude (hf : f.IsUnambiguous) {real : Bool} {v : List Char}
    (h : f.IsNumber real v) {sign lead : Option Char} (hsign : ∀ c ∈ sign, f.sign.contains c = true)
    (hunsigned : sign = none → f.sign.covers (lead.toList ++ text).head? = false)
    (hlead : ∀ c ∈ lead, f.separator.contains c = true)
    (hunled : lead = none → f.leadingSeparator = true → f.separator.covers text.head? = true →
      f.digit.covers text[1]? = false)
    (hbegins : v <+: sign.toList ++ (lead.toList ++ text)) :
    ∃ w, v = sign.toList ++ (lead.toList ++ w) ∧ f.IsMagnitude real w ∧ w <+: text := by
  obtain @⟨sign', lead', _, w, hsign', hlead', hw⟩ := h
  obtain ⟨c, w, rfl, hc⟩ := hw.exists_first
  have hne : lead'.toList ++ c :: w ≠ [] := by simp
  obtain ⟨rfl, hrest⟩ : sign' = sign ∧ lead'.toList ++ c :: w <+: lead.toList ++ text := by
    refine option_eq_of_begins hbegins ?_ ?_ hne
    · intro d hd hhead hnone
      have hcovers := hunsigned hnone
      rw [head?_eq_of_begins rfl hhead] at hcovers
      exact absurd (hsign' d hd) (Bool.eq_false_iff.mp hcovers)
    · intro d hd hhead
      -- A sign is neither a separator nor a digit nor a decimal separator.
      cases lead' with
      | some e =>
        obtain rfl := Option.some.inj hhead
        exact hf.sign_separator e (hsign e hd) (hlead' e rfl).2.1
      | none =>
        obtain rfl := Option.some.inj hhead
        exact hc.elim (hf.sign_digit c (hsign c hd)) (hf.sign_point c (hsign c hd))
  obtain ⟨rfl, hmagnitude⟩ : lead' = lead ∧ c :: w <+: text := by
    refine option_eq_of_begins hrest ?_ ?_ (List.cons_ne_nil c w)
    · intro d hd hhead hnone
      obtain ⟨hleading, hseparator, hdigit⟩ := hlead' d hd
      have hcovers := hunled hnone hleading (by rw [head?_eq_of_begins rfl hhead]; exact hseparator)
      obtain ⟨rest, rfl⟩ := hhead
      exact absurd hdigit (Bool.eq_false_iff.mp hcovers)
    · intro d hd hhead
      obtain rfl := Option.some.inj hhead
      exact hc.elim (fun hc => hf.digit_separator c hc (hlead c hd))
        (hf.separator_point c (hlead c hd))
  exact ⟨c :: w, rfl, hw, hmagnitude⟩

end Numeral

end Lexing
