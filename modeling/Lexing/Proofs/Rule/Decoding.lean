import Lexing.Proofs.Rule.Basic
import Lexing.Proofs.Scanner.Decoding
import Mathlib.Data.List.TakeWhile

/-!
# What rules make of well-formed text

Where the upcoming text is what a rule is made for, the rule consumes exactly that text and decodes
it: escapes and quoted texts become what they stand for, and digits become themselves. What comes
after the text matters only for numbers, which must not be able to go on.

## Main definitions

* `Quotation.Writes` : how a code point may be written within a quoted text.
* `Numeral.Stops` : a text with which a number cannot go on.

## Main results

* `CharEscape.exists_attempt`, `HexEscape.exists_attempt` : escapes.
* `Quotation.exists_opened`, `Quotation.exists_scan_of_writes` : quoted texts.
* `Numeral.exists_scan_of_digits`, `Numeral.exists_miss` : numbers, and text that is none.
-/

namespace Lexing

open Scanner

variable {s : Scanner} {rest : List Char} {c : Char}

/-! ### Escapes -/

theorem CharEscape.exists_attempt {e : CharEscape} {sign : Char} (h : e.lookup? sign = some c)
    (hup : s.upcoming.chars = sign :: rest) :
    ∃ t, e.attempt s = some t ∧ s.Decodes [sign] [c] t := by
  have hcurrent := current?_of_upcoming hup
  have hskip : (s.pushChar c).Decodes [sign] [] (s.pushChar c).skip := decodes_skip hcurrent
  refine ⟨(s.pushChar c).skip, ?_, (decodes_pushChar s c).trans hskip⟩
  rw [attempt, hcurrent, Option.bind_some, h, Option.map_some]

/-- A letter and as many hexadecimal digits as are expected, which denote a code point. -/
theorem HexEscape.exists_attempt {e : HexEscape} (hbyte : e.asByte = false) {digits : List Char}
    (hwidth : digits.length = e.width)
    (hdigits : ∀ d ∈ digits, CharClass.hexDigit.contains d = true)
    (hvalue : Utf8.scalar? (digitsValue 16 digits) = some c)
    (hup : s.upcoming.chars = e.flag :: (digits ++ rest)) :
    ∃ t, e.attempt s = some t ∧ s.Decodes (e.flag :: digits) [c] t := by
  have hcurrent := current?_of_upcoming hup
  have hskip := decodes_skip hcurrent
  have hrest : s.skip.upcoming.chars = digits ++ rest := hskip.upcoming_eq hup
  have htaken : s.skip.upcomingDigits e.width .hexDigit = digits := by
    rw [upcomingDigits, hrest, ← hwidth, List.take_left, List.takeWhile_eq_self_iff.mpr hdigits]
  have htimes : s.skip.Decodes digits [] (s.skip.times e.width .skip) :=
    hwidth ▸ decodes_times_skip hrest
  refine ⟨(s.skip.times e.width .skip).pushChar c, ?_,
    hskip.trans (by simpa using htimes.trans (decodes_pushChar _ c))⟩
  rw [attempt, if_pos hcurrent, decodeDigits, htaken]
  simp [hwidth, hbyte, hvalue]

/-! ### Quoted texts -/

namespace Quotation

variable {q : Quotation} {escapes : Scanner → Outcome}

/-- The text is a way to write the code point `c` within a quoted text: `c` itself, or the escape
flag and what the escapes decode to `c`. -/
inductive Writes (q : Quotation) (escapes : Scanner → Outcome) (c : Char) : List Char → Prop
  | plain (hclosing : c ≠ q.closing) (hline : q.endsLine c = false)
      (hescape : q.isEscape (some c) = false) : Writes q escapes c [c]
  | escaped {flag : Char} {e : List Char} (hclosing : flag ≠ q.closing)
      (hline : q.endsLine flag = false) (hescape : q.isEscape (some flag) = true)
      (h : ∀ s rest, s.upcoming.chars = e ++ rest →
        ∃ t, q.unescape escapes flag s = .ok t ∧ s.Decodes e [c] t) :
      Writes q escapes c (flag :: e)

/-- The closing delimiter and the escape flag stand for themselves after the flag. -/
theorem unescape_of_plain {flag : Char}
    (h : s.current? = some q.closing ∨ q.isEscape s.current? = true) :
    q.unescape escapes flag s = .ok s.keep := by
  rw [unescape, if_pos (by simpa using h)]

theorem unescape_of_decoded {t : Scanner} {flag : Char} (hclosing : s.current? ≠ some q.closing)
    (hescape : q.isEscape s.current? = false) (h : escapes s = .ok (true, t)) :
    q.unescape escapes flag s = .ok t := by
  rw [unescape, if_neg (by simp [hclosing, hescape]), h]
  rfl

variable {write : Char → List Char}

/-- The body of a quoted text decodes to the text that was written. -/
theorem exists_body_of_writes (hlength : q.maxLength = none) (hnested : q.nested = false)
    (hwrite : ∀ c, q.Writes escapes c (write c)) (bound length : Nat) {text : List Char}
    (hbound : text.length < bound)
    (hup : s.upcoming.chars = text.flatMap write ++ q.closing :: rest) :
    ∃ t, q.body escapes bound 0 length s = .ok t ∧
      s.Decodes (text.flatMap write ++ [q.closing]) text t := by
  induction text generalizing s bound length with
  | nil =>
    obtain ⟨bound, rfl⟩ := Nat.exists_eq_add_one.mpr hbound
    have hcurrent := current?_of_upcoming hup
    refine ⟨s.skip, ?_, decodes_skip hcurrent⟩
    rw [body, hcurrent]
    simp
  | cons c text ih =>
    obtain ⟨bound, rfl⟩ := Nat.exists_eq_add_one.mpr (Nat.lt_of_le_of_lt (Nat.zero_le _) hbound)
    have hmore : text.length < bound := Nat.lt_of_succ_lt_succ hbound
    have hnolimit : ¬q.maxLength = some length := by simp [hlength]
    have hc := hwrite c
    rw [List.flatMap_cons, List.append_assoc] at hup ⊢
    generalize write c = w at hc hup ⊢
    cases hc with
    | plain hclosing hline hescape =>
      have hcurrent := current?_of_upcoming hup
      have hkeep := decodes_keep hcurrent
      have hdepth : q.depthAfter 0 c = 0 := by simp [depthAfter, hnested]
      obtain ⟨t, ht, hdecodes⟩ := ih bound (length + 1) hmore (hkeep.upcoming_eq hup)
      refine ⟨t, ?_, hkeep.trans hdecodes⟩
      rw [body, hcurrent]
      simpa [hclosing, hline, hnolimit, hescape, hdepth] using ht
    | @escaped flag e hclosing hline hescape h =>
      have hcurrent := current?_of_upcoming hup
      have hskip := decodes_skip hcurrent
      obtain ⟨u, hu, hdecoded⟩ := h s.skip _ (hskip.upcoming_eq hup)
      have hflag := hskip.trans hdecoded
      obtain ⟨t, ht, hdecodes⟩ := ih bound (length + 1) hmore (hflag.upcoming_eq hup)
      refine ⟨t, ?_, hflag.trans hdecodes⟩
      rw [body, hcurrent]
      simp only [hclosing, false_and, if_false, hline, Bool.false_eq_true, hnolimit, hescape,
        if_true, hu, bind, Except.bind, hflag.diagnostics, Nat.lt_irrefl]
      exact ht

/-- No code point is written as nothing. -/
theorem length_le_of_writes (hwrite : ∀ c, q.Writes escapes c (write c)) (text : List Char) :
    text.length ≤ (text.flatMap write).length := by
  induction text with
  | nil => exact Nat.le_refl 0
  | cons c text ih =>
    have hpos : 0 < (write c).length := by
      have hc := hwrite c
      generalize write c = w at hc
      cases hc with
      | plain => exact Nat.zero_lt_succ _
      | escaped => exact Nat.zero_lt_succ _
    rw [List.flatMap_cons, List.length_append, List.length_cons]
    omega

/-- At an opening delimiter where a token begins, a quoted text is matched if its body is, which is
read from a draft without value and diagnostics, and with a bound that the text does not reach. -/
theorem exists_opened {text : List Char} (escapes : Scanner → Outcome) (hs : s.IsFresh)
    (hup : s.upcoming.chars = q.opening :: text) :
    ∃ u bound, s.Consumes [q.opening] u ∧ u.upcoming.chars = text ∧ text.length < bound ∧
      u.draft.value = [] ∧ u.draft.kind = q.kind ∧ u.draft.diagnostics = #[] ∧
      ∀ t, q.body escapes bound 0 0 u = .ok t → q.scan escapes s = .ok (true, t) := by
  have hcurrent := current?_of_upcoming hup
  have hskip := decodes_skip hcurrent
  have hrest : (s.skip.setKind q.kind).upcoming.chars = text := hskip.upcoming_eq hup
  have hbound := (s.skip.setKind q.kind).two_mul_length_lt_allowance
  rw [hrest] at hbound
  refine ⟨s.skip.setKind q.kind, (s.skip.setKind q.kind).allowance + q.maxLength.getD 0 + 1,
    hskip.consumes.setKind q.kind, hrest, by omega, ?_, rfl, ?_, fun t ht => ?_⟩
  · exact (value_skip s).trans (congrArg Draft.value hs.1)
  · exact hskip.diagnostics.trans (congrArg Draft.diagnostics hs.1)
  · rw [scan, if_pos hcurrent]
    simp only [ht]
    rfl

/-- A quoted text decodes to the text that was written. -/
theorem exists_scan_of_writes (hlength : q.maxLength = none) (hnested : q.nested = false)
    (hwrite : ∀ c, q.Writes escapes c (write c)) {text : List Char}
    (hup : s.upcoming.chars = q.opening :: (text.flatMap write ++ q.closing :: rest)) :
    ∃ t, q.scan escapes s = .ok (true, t) ∧
      (s.skip.setKind q.kind).Decodes (text.flatMap write ++ [q.closing]) text t := by
  have hcurrent := current?_of_upcoming hup
  have hrest : (s.skip.setKind q.kind).upcoming.chars = text.flatMap write ++ q.closing :: rest :=
    (decodes_skip hcurrent).upcoming_eq hup
  have hwritten := length_le_of_writes hwrite text
  have hbound := (s.skip.setKind q.kind).two_mul_length_lt_allowance
  rw [hrest, List.length_append] at hbound
  obtain ⟨t, ht, hdecodes⟩ := exists_body_of_writes hlength hnested hwrite
    ((s.skip.setKind q.kind).allowance + q.maxLength.getD 0 + 1) 0 (by omega) hrest
  refine ⟨t, ?_, hdecodes⟩
  rw [scan, if_pos hcurrent]
  simp only [ht]
  rfl

end Quotation

/-! ### Numbers -/

namespace Numeral

variable {f : Numeral}

/-- The text does not begin with something that a number could go on with. -/
structure Stops (f : Numeral) (rest : List Char) : Prop where
  digit : f.digit.covers rest.head? = false
  separator : f.separator.covers rest.head? = false
  point : f.point.covers rest.head? = false
  exponent : f.exponent.covers rest.head? = false

theorem isIn_of_upcoming (hup : s.upcoming.chars = rest) (k : CharClass) :
    s.isIn k = k.covers rest.head? := by
  rw [isIn, Scanner.current?_eq, hup]

theorem separates_of_not_isIn (h : s.isIn f.separator = false) : f.separates s = false := by
  rw [separates, h, Bool.false_and, Bool.false_and]

theorem exists_digitsWithin (hstops : f.Stops rest) {digits : List Char}
    (hdigits : ∀ d ∈ digits, f.digit.contains d = true) (seen : Bool)
    (hup : s.upcoming.chars = digits ++ rest) :
    ∃ t, f.digitsWithin (digits ++ rest) seen s = (seen || !digits.isEmpty, t) ∧
      s.Decodes digits digits t := by
  induction digits generalizing s seen with
  | nil =>
    have hseparates : f.separates s = false :=
      separates_of_not_isIn ((isIn_of_upcoming hup f.separator).trans hstops.separator)
    refine ⟨s, ?_, .refl s⟩
    rw [digitsWithin_of_stop ((isIn_of_upcoming hup f.digit).trans hstops.digit) hseparates]
    simp
  | cons d digits ih =>
    obtain ⟨hd, hdigits⟩ := List.forall_mem_cons.mp hdigits
    have hkeep := decodes_keep (current?_of_upcoming hup)
    obtain ⟨t, ht, hdecodes⟩ := ih hdigits true (hkeep.upcoming_eq hup)
    have hin : s.isIn f.digit = true := (isIn_of_upcoming hup f.digit).trans hd
    refine ⟨t, ?_, hkeep.trans hdecodes⟩
    rw [List.cons_append, digitsWithin, if_pos hin, ht]
    simp

/-- Digits that cannot go on are the whole of a number. -/
theorem exists_body (hstops : f.Stops rest) {digits : List Char} (hne : digits ≠ [])
    (hdigits : ∀ d ∈ digits, f.digit.contains d = true)
    (hzero : f.leadingZero = false → digits.head? = some '0' → digits = ['0'])
    (hup : s.upcoming.chars = digits ++ rest) :
    ∃ t, f.body s = (true, t) ∧ s.Decodes digits digits t := by
  by_cases hlone : f.isLoneZero s = true
  · have hfirst : digits.head? = s.current? := by
      obtain ⟨d, ds, rfl⟩ := List.exists_cons_of_ne_nil hne
      rw [Scanner.current?_eq, hup]
      rfl
    obtain ⟨⟨⟨hleading, hcurrent⟩, -⟩, -⟩ :
        ((f.leadingZero = false ∧ s.current? = some '0') ∧ s.followingIn f.point = false) ∧
          s.followingIn f.exponent = false := by
      simpa [isLoneZero] using hlone
    obtain rfl := hzero hleading (hfirst.trans hcurrent)
    refine ⟨s.keep, ?_, decodes_keep hcurrent⟩
    rw [body, if_pos hlone]
  · obtain ⟨t, ht, hdecodes⟩ := exists_digitsWithin hstops hdigits false hup
    have hrest := hdecodes.upcoming_eq hup
    have hwhole : f.digits s = (true, t) := by
      rw [Numeral.digits, hup, ht]
      simp [hne]
    have hfraction : f.fraction true t = (true, t) := by
      rw [fraction, isIn_of_upcoming hrest, hstops.point, Bool.false_and]
      rfl
    have hexponent : f.exponentPart t = t := by
      rw [exponentPart, exponentFollows, isIn_of_upcoming hrest, hstops.exponent, Bool.false_and]
      rfl
    refine ⟨t, ?_, hdecodes⟩
    rw [body, if_neg hlone, hwhole]
    simp [hfraction, hexponent]

variable {lead suffix : Scanner → Outcome}

/-- Digits that cannot go on are a number, which has neither lead nor suffix. -/
theorem exists_scan_of_digits (hlead : ∀ s, lead s = .ok (true, s))
    (hsuffix : ∀ s, suffix s = .ok (false, s)) (hkind : f.kind = none)
    (hleading : f.leadingSeparator = false) (hstops : f.Stops rest) {digits : List Char}
    (hne : digits ≠ []) (hdigits : ∀ d ∈ digits, f.digit.contains d = true)
    (hsign : ∀ d ∈ digits, f.sign.contains d = false)
    (hzero : f.leadingZero = false → digits.head? = some '0' → digits = ['0'])
    (hup : s.upcoming.chars = digits ++ rest) :
    ∃ t, f.scan lead suffix s = .ok (true, t) ∧
      (s.setKind f.integerKind).Decodes digits digits t := by
  obtain ⟨t, ht, hdecodes⟩ :=
    exists_body (s := s.setKind f.integerKind) hstops hne hdigits hzero hup
  have htakeSign : f.takeSign s = s := by
    obtain ⟨d, ds, rfl⟩ := List.exists_cons_of_ne_nil hne
    have hd : s.isIn f.sign = false :=
      (isIn_of_upcoming hup f.sign).trans (hsign d List.mem_cons_self)
    rw [takeSign, hd]
    rfl
  have hpass : f.passLeadingSeparator (s.setKind f.integerKind) = s.setKind f.integerKind := by
    rw [passLeadingSeparator, hleading, Bool.false_and, Bool.false_and]
    rfl
  refine ⟨t, ?_, hdecodes⟩
  rw [scan, htakeSign, hlead]
  simp [bind, Except.bind, hpass, ht, hkind, setKind?, hsuffix, pure, Except.pure]

/-- A code point that no number begins with. -/
theorem exists_miss (hlead : ∀ s, lead s = .ok (true, s)) (hleading : f.leadingSeparator = false)
    (hs : s.IsFresh) (hcurrent : s.current? = some c) (hzero : c ≠ '0')
    (hsign : f.sign.contains c = false) (hdigit : f.digit.contains c = false)
    (hseparator : f.separator.contains c = false) (hpoint : f.point.contains c = false) :
    ∃ t, f.scan lead suffix s = .ok (false, t) ∧ s.Restores t := by
  have hin (k : CharClass) (u : Scanner) (hu : u.current? = some c) : u.isIn k = k.contains c := by
    rw [isIn, hu]
    rfl
  have htakeSign : f.takeSign s = s := by
    rw [takeSign, hin _ _ hcurrent, hsign]
    rfl
  have hpass : f.passLeadingSeparator (s.setKind f.integerKind) = s.setKind f.integerKind := by
    rw [passLeadingSeparator, hleading, Bool.false_and, Bool.false_and]
    rfl
  have hcurrent' : (s.setKind f.integerKind).current? = some c := hcurrent
  have hlone : f.isLoneZero (s.setKind f.integerKind) = false := by
    simp [isLoneZero, hcurrent', hzero]
  have hdigits : f.digits (s.setKind f.integerKind) = (false, s.setKind f.integerKind) :=
    digitsWithin_of_stop ((hin _ _ hcurrent').trans hdigit)
      (separates_of_not_isIn ((hin _ _ hcurrent').trans hseparator)) _ _
  have hbody : f.body (s.setKind f.integerKind) = (false, s.setKind f.integerKind) := by
    rw [body, hlone, hdigits]
    simp [fraction, hin _ _ hcurrent', hpoint]
  refine ⟨(s.setKind f.integerKind).rewind, ?_,
    ((Consumes.refl s).setKind f.integerKind).restores_rewind hs⟩
  rw [scan, htakeSign, hlead]
  simp [bind, Except.bind, hpass, hbody, pure, Except.pure]

end Numeral

end Lexing
