import Lexing.Proofs.Rule.Line
import Lexing.Proofs.Rule.QuotationGrammar

/-!
# How quoted texts end

Whatever stands after an opening delimiter, a quoted text ends in one of two ways. It is closed by a
delimiter, in its body or in the recovery after a malformed part, and then no report says that the
delimiter is missing. Or it is cut off at the end of the text, or of the line that it has to stay
on, and then this is the last report and said only once.

The text between the delimiters is consumed in passes. An escape flag and the code point after it
belong to one pass, so a delimiter after a flag does not close, and a line feed after a flag still
ends the line. An escape that is not valid leaves the flag alone, or the flag and a letter, and the
recovery goes on from there.

## Main definitions

* `Quotation.Pass` : what is passed as a whole.
* `Quotation.IsWithin` : the literal is made of passes.
* `Quotation.IsClosed`, `Quotation.IsCutOff` : the two ways to end.

## Main results

* `Quotation.recoverWithin_ends`, `Quotation.body_ends` : recovery and bodies.
* `Quotation.ends_closed_or_cut_off` : quoted texts.
-/

namespace Lexing

open Scanner

variable {s t : Scanner} {w cut : List Char} {c : Char} {m : Move}

namespace Quotation

variable {q : Quotation} {depth depth' : Nat} {escapes : List Rule} {flags : Flags} {flag : Char}

/-! ### Passes -/

/-- The text is passed as a whole: a code point that is no escape flag, or a flag with the code
point after it and the digits that belong to them. A code point alone is a closing delimiter only
where it is paired with an inner one, and none ends the line that the quoted text has to stay on.
The numbers are the depths of nesting before and after the pass. -/
inductive Pass (q : Quotation) : Nat → List Char → Nat → Prop
  | plain {depth : Nat} {c : Char} (hflag : q.escape ≠ some c)
      (hclosing : c = q.closing → depth ≠ 0) (hline : q.endsLine c = false) :
      Pass q depth [c] (q.depthAfter depth c)
  | escaped {depth : Nat} {flag c : Char} {digits : List Char} (hflag : q.escape = some flag)
      (hline : q.endsLine c = false)
      (hdigits : ∀ d ∈ digits, CharClass.hexDigit.contains d = true) :
      Pass q depth (flag :: c :: digits) depth

/-- The text is made of passes, after which the depth of nesting is as given. -/
inductive Passes (q : Quotation) : Nat → List Char → Prop
  | nil : Passes q 0 []
  | pass {depth depth' : Nat} {w v : List Char} (h : Passes q depth w)
      (hv : q.Pass depth v depth') : Passes q depth' (w ++ v)

/-- The literal is an opening delimiter, followed by passes and then `cut`. -/
def Holds (q : Quotation) (depth : Nat) (cut : List Char) (s : Scanner) : Prop :=
  ∃ w, q.Passes depth w ∧ s.draft.literal = q.opening :: (w ++ cut)

/-- The literal ends with `cut` after passes, and no report says that a delimiter is missing. -/
structure IsWithin (q : Quotation) (depth : Nat) (cut : List Char) (s : Scanner) : Prop where
  holds : q.Holds depth cut s
  diagnostics : ∀ d ∈ s.draft.diagnostics, d.problem ≠ .unterminatedString

/-- The last code point consumed is a closing delimiter that stands after passes. It is not paired
with an inner one, unless it ends a recovery. No report says that it is missing. -/
structure IsClosed (q : Quotation) (t : Scanner) : Prop where
  holds : ∃ depth, q.Holds depth [q.closing] t ∧ (t.draft.diagnostics = #[] → depth = 0)
  diagnostics : ∀ d ∈ t.draft.diagnostics, d.problem ≠ .unterminatedString

/-- The scanner stands at the end of the text, or of the line that the quoted text has to stay on,
after passes and at most an escape flag. The last report, and no other, says that the closing
delimiter is missing. -/
structure IsCutOff (q : Quotation) (t : Scanner) : Prop where
  holds : ∃ depth cut, (cut = [] ∨ cut = q.escape.toList) ∧ q.Holds depth cut t
  stop : t.current? = none ∨ q.multiline = false ∧ t.current? = some '\n'
  diagnostics : ∃ earlier : Array Diagnostic,
    t.draft.diagnostics = earlier.push ⟨t.start, .unterminatedString, none⟩ ∧
      ∀ d ∈ earlier, d.problem ≠ .unterminatedString

/-- The end of the text or of the line is reached. -/
def Stops (q : Quotation) (s : Scanner) : Prop :=
  ∀ c, s.current? = some c → q.endsLine c = true

theorem IsClosed.not_isCutOff (h : q.IsClosed t) : ¬q.IsCutOff t := by
  intro hcut
  obtain ⟨earlier, hd, -⟩ := hcut.diagnostics
  exact h.diagnostics _ (hd ▸ Array.mem_push_self) rfl

namespace IsWithin

/-- A pass that is completed leaves nothing cut. -/
theorem pass (h : q.IsWithin depth cut s) (hw : q.Pass depth (cut ++ w) depth')
    (ht : s.Consumes w t) (hd : t.draft.diagnostics = s.draft.diagnostics) :
    q.IsWithin depth' [] t := by
  obtain ⟨v, hv, hliteral⟩ := h.holds
  refine ⟨⟨v ++ (cut ++ w), .pass hv hw, ?_⟩, hd ▸ h.diagnostics⟩
  rw [ht.literal, hliteral]
  simp

/-- What is consumed after passes is cut. -/
theorem extend (h : q.IsWithin depth [] s) (ht : s.Consumes w t)
    (hd : t.draft.diagnostics = s.draft.diagnostics) : q.IsWithin depth w t := by
  obtain ⟨v, hv, hliteral⟩ := h.holds
  refine ⟨⟨v, hv, ?_⟩, hd ▸ h.diagnostics⟩
  rw [ht.literal, hliteral]
  simp

/-- A closing delimiter ends a quoted text without inner ones, or a recovery. -/
theorem isClosed (h : q.IsWithin depth [] s) (hc : s.current? = some q.closing)
    (hdepth : s.draft.diagnostics = #[] → depth = 0) : q.IsClosed s.skip := by
  have hskip := h.extend (decodes_skip hc).consumes (diagnostics_skip s)
  exact ⟨⟨depth, hskip.holds, fun hclean => hdepth ((diagnostics_skip s).symm.trans hclean)⟩,
    hskip.diagnostics⟩

theorem reject (h : q.IsWithin depth cut s) {problem : Problem}
    (hne : problem ≠ .unterminatedString) : q.IsWithin depth cut (s.reject problem) := by
  refine ⟨h.holds, fun d hd => ?_⟩
  rcases Array.mem_push.mp hd with hd | rfl
  · exact h.diagnostics d hd
  · exact hne

/-- A quoted text is cut off where the text or the line ends. -/
theorem isCutOff (h : q.IsWithin depth cut s) (hcut : cut = [] ∨ cut = q.escape.toList)
    (hstop : q.Stops s) : q.IsCutOff (s.reject .unterminatedString) := by
  refine ⟨⟨depth, cut, hcut, h.holds⟩, ?_, s.draft.diagnostics, rfl, h.diagnostics⟩
  change s.current? = none ∨ q.multiline = false ∧ s.current? = some '\n'
  cases hc : s.current? with
  | none => exact .inl rfl
  | some c =>
    obtain ⟨rfl, hline⟩ := endsLine_eq_true_iff.mp (hstop c hc)
    exact .inr ⟨hline, rfl⟩

end IsWithin

/-! ### Recovery -/

theorem recoverWithin_of_stops (h : q.Stops s) (m : Move) (bound : List Char) :
    q.recoverWithin m bound s = s.reject .unterminatedString := by
  cases bound with
  | nil => rfl
  | cons b bound =>
    cases hc : s.current? with
    | none => simp only [recoverWithin, hc]
    | some c => simp only [recoverWithin, hc, h c hc, if_true]

theorem diagnostics_passEscape (hm : m.IsForward) (s : Scanner) :
    (q.passEscape m s).draft.diagnostics = s.draft.diagnostics := by
  rw [passEscape]
  split
  · exact diagnostics_apply hm s
  · exact (diagnostics_apply hm _).trans (diagnostics_apply hm s)

/-- A flag is passed together with the code point after it, unless the text or the line ends there.
-/
theorem IsWithin.passEscape (h : q.IsWithin depth [] s) (hm : m.IsForward)
    (hc : s.current? = some flag) (hflag : q.escape = some flag) :
    q.IsWithin depth [] (q.passEscape m s) ∨
      q.IsWithin depth [flag] (q.passEscape m s) ∧ q.Stops (q.passEscape m s) := by
  have hconsumes := consumes_apply hm s
  rw [hc] at hconsumes
  have hcut : q.IsWithin depth [flag] (m.apply s) := h.extend hconsumes (diagnostics_apply hm s)
  rw [Quotation.passEscape]
  generalize m.apply s = u at hcut
  have hconsumes := consumes_apply hm u
  cases hd : u.current? with
  | none =>
    have hstay : m.apply u = u := by
      rcases hm with rfl | rfl
      · simp only [Move.apply, keep, hd]
      · simp only [Move.apply, skip, hd]
    refine .inr ?_
    simp only [hstay, ite_self]
    exact ⟨hcut, fun c hc => absurd (hd.symm.trans hc) (Option.some_ne_none c).symm⟩
  | some d =>
    simp only [Option.any_some]
    split
    · rename_i hline
      exact .inr ⟨hcut, fun c hc => Option.some.inj (hd.symm.trans hc) ▸ hline⟩
    · rename_i hline
      rw [hd] at hconsumes
      have hpass : q.Pass depth [flag, d] depth :=
        .escaped hflag (Bool.eq_false_iff.mpr hline) fun d hd => absurd hd List.not_mem_nil
      exact .inl (hcut.pass hpass hconsumes (diagnostics_apply hm u))

/-- A code point that neither closes nor begins an escape ends the pass that it belongs to. -/
theorem exists_pass_of_cut (depth : Nat) (hcut : cut = [] ∨ cut = q.escape.toList)
    (hflag : q.escape ≠ some c) (hclosing : c ≠ q.closing) (hline : q.endsLine c = false) :
    ∃ depth', q.Pass depth (cut ++ [c]) depth' := by
  have hplain : q.Pass depth [c] _ := .plain hflag (fun heq => absurd heq hclosing) hline
  rcases hcut with rfl | rfl
  · exact ⟨_, hplain⟩
  · cases hescape : q.escape with
    | none => exact ⟨_, hplain⟩
    | some flag =>
      exact ⟨depth, .escaped hescape hline fun d hd => absurd hd List.not_mem_nil⟩

/-- Recovery ends in one of the two ways, wherever it begins: between two passes, or after an escape
flag at the end of the text or line, or before a code point that is neither the flag nor a closing
delimiter. -/
theorem recoverWithin_ends (hm : m.IsForward) {bound : List Char}
    (hbound : s.upcoming.chars.length ≤ bound.length) (h : q.IsWithin depth cut s)
    (hreport : s.draft.diagnostics ≠ #[])
    (hcut : cut = [] ∨ cut = q.escape.toList ∧
      (q.Stops s ∨ s.current? ≠ some q.closing ∧ q.isEscape s.current? = false)) :
    q.IsClosed (q.recoverWithin m bound s) ∨ q.IsCutOff (q.recoverWithin m bound s) := by
  induction bound generalizing s depth cut with
  | nil =>
    have hstop : q.Stops s := by
      intro c hc
      rw [upcoming_of_current? hc] at hbound
      exact absurd hbound (Nat.not_succ_le_zero _)
    exact .inr (h.isCutOff (hcut.imp_right And.left) hstop)
  | cons b bound ih =>
    by_cases hstop : q.Stops s
    · rw [recoverWithin_of_stops hstop]
      exact .inr (h.isCutOff (hcut.imp_right And.left) hstop)
    · obtain ⟨c, hc, hline⟩ : ∃ c, s.current? = some c ∧ q.endsLine c = false := by
        simpa [Stops] using hstop
      have hup := congrArg List.length (upcoming_of_current? hc)
      rw [List.length_cons] at hup hbound
      -- A code point that closes or begins an escape is met between two passes only.
      have hnil (hmark : c = q.closing ∨ q.isEscape (some c) = true) : cut = [] := by
        refine hcut.resolve_right fun ⟨_, hnot⟩ => ?_
        obtain ⟨hclosing, hescape⟩ := hnot.resolve_left hstop
        rw [hc] at hclosing hescape
        rcases hmark with rfl | hmark
        · exact hclosing rfl
        · exact Bool.false_ne_true (hescape.symm.trans hmark)
      simp only [recoverWithin, hc, hline, Bool.false_eq_true, if_false]
      split
      · rename_i hclosing
        obtain rfl := hnil (.inl hclosing)
        exact .inl (h.isClosed (hclosing ▸ hc) fun hclean => absurd hclean hreport)
      · rename_i hclosing
        split
        · rename_i hescape
          obtain rfl := hnil (.inr hescape)
          have hflag := isEscape_some_iff.mp hescape
          have hle := length_passEscape_le (q := q) hm s
          rw [List.length_tail] at hle
          have hreport' : (q.passEscape m s).draft.diagnostics ≠ #[] := by
            rwa [diagnostics_passEscape hm]
          rcases h.passEscape hm hc hflag with hpassed | ⟨hpassed, hstop⟩
          · exact ih (by omega) hpassed hreport' (.inl rfl)
          · exact ih (by omega) hpassed hreport' (.inr ⟨by rw [hflag]; rfl, .inl hstop⟩)
        · rename_i hescape
          have hconsumes := consumes_apply hm s
          rw [hc] at hconsumes
          have hle := congrArg List.length hconsumes.upcoming
          rw [List.length_append, Option.toList_some, List.length_singleton] at hle
          obtain ⟨depth', hpass⟩ := exists_pass_of_cut depth (hcut.imp_right And.left)
            (mt isEscape_some_iff.mpr hescape) hclosing hline
          exact ih (by omega) (h.pass hpass hconsumes (diagnostics_apply hm s))
            (by rwa [diagnostics_apply hm]) (.inl rfl)

/-- Recovery after a report ends in one of the two ways. -/
theorem recover_ends (hm : m.IsForward) (h : q.IsWithin depth cut s) {problem : Problem}
    (hproblem : problem ≠ .unterminatedString)
    (hcut : cut = [] ∨ cut = q.escape.toList ∧ s.current? ≠ some q.closing ∧
      q.isEscape s.current? = false) :
    q.IsClosed (q.recover m (s.reject problem)) ∨ q.IsCutOff (q.recover m (s.reject problem)) :=
  recoverWithin_ends hm (Nat.le_refl _) (h.reject hproblem) Array.push_ne_empty
    (hcut.imp_right fun h => ⟨h.1, .inr h.2⟩)

end Quotation

/-! ### Escapes -/

theorem CharClass.hexDigit_of_octalDigit (h : octalDigit.contains c = true) :
    hexDigit.contains c = true := by
  simp only [octalDigit, contains, Bool.and_eq_true, decide_eq_true_eq, Char.le_def] at h
  simp only [hexDigit, contains, isHexDigit, Char.isDigit, Bool.or_eq_true, Bool.and_eq_true,
    decide_eq_true_eq]
  exact .inl (.inl ⟨h.1, UInt32.le_trans h.2 (by decide : '7'.val ≤ '9'.val)⟩)

theorem Scanner.diagnostics_times (hm : m.IsForward) (n : Nat) (s : Scanner) :
    (s.times n m).draft.diagnostics = s.draft.diagnostics := by
  induction n generalizing s with
  | zero => rfl
  | succ n ih => exact (ih (m.apply s)).trans (diagnostics_apply hm s)

/-- Hexadecimal digits are decoded without a report, or they are reported and left. -/
theorem HexEscape.decodeDigits_cases (e : HexEscape) (s : Scanner) :
    (∃ digits, e.decodeDigits s = s.rejectDigits digits) ∨
      (e.decodeDigits s).draft.diagnostics = s.draft.diagnostics := by
  rw [decodeDigits]
  split
  · exact .inl ⟨_, rfl⟩
  · split
    · exact .inr (diagnostics_times (.inr rfl) e.width s)
    · split
      · exact .inr (diagnostics_times (.inr rfl) e.width s)
      · exact .inl ⟨_, rfl⟩

/-- Octal digits are decoded without a report, or they are reported and left. -/
theorem OctalEscape.attempt_cases {e : OctalEscape} (h : e.attempt s = some t) :
    (∃ digits, t = s.rejectDigits digits) ∨ t.draft.diagnostics = s.draft.diagnostics := by
  rw [attempt] at h
  split at h
  · cases h
  · dsimp only at h
    split at h
    · exact .inl ⟨_, (Option.some.inj h).symm⟩
    · split at h
      · obtain rfl := Option.some.inj h
        exact .inr (diagnostics_times (.inr rfl) 3 s)
      · obtain rfl := Option.some.inj h
        exact .inr (diagnostics_times (.inr rfl) 3 s)

namespace Rule

variable {flags : Flags} {r : Rule}

/-- Behind the code point that it begins with, an escape is made of digits. -/
theorem Denotes.digits {bytes : List UInt8} (h : r.Denotes (c :: w) bytes) :
    ∀ d ∈ w, CharClass.hexDigit.contains d = true := by
  cases h with
  | char => exact fun d hd => absurd hd List.not_mem_nil
  | hex _ _ hdigits => exact hdigits
  | hexByte _ _ hdigits => exact hdigits
  | octal _ hdigits =>
    exact fun d hd => CharClass.hexDigit_of_octalDigit (hdigits d (List.mem_cons_of_mem c hd))

/-- What an escape rule reports is about digits, before which nothing or a letter was consumed. -/
theorem IsEscape.eval_of_report (hr : r.IsEscape) (hs : s.draft.diagnostics = #[])
    (ht : r.eval flags s = .ok (true, t)) (hreport : t.draft.diagnostics ≠ #[]) :
    ∃ u digits, t = u.rejectDigits digits ∧
      (u = s ∨ ∃ c, s.current? = some c ∧ r.claims c = true ∧ u = s.skip) := by
  rcases hr with ⟨e, rfl⟩ | ⟨e, rfl⟩ | ⟨e, rfl⟩
  · obtain ⟨d, -, rfl⟩ := Option.map_eq_some_iff.mp (eq_some_of_settle ht)
    exact absurd ((diagnostics_skip (s.pushChar d)).trans hs) hreport
  · have hattempt := eq_some_of_settle ht
    rw [HexEscape.attempt] at hattempt
    split at hattempt
    · rename_i hflag
      obtain rfl := Option.some.inj hattempt
      rcases e.decodeDigits_cases s.skip with ⟨digits, hdigits⟩ | hclean
      · exact ⟨s.skip, digits, hdigits, .inr ⟨e.flag, hflag, by simp [claims], rfl⟩⟩
      · exact absurd (hclean.trans ((diagnostics_skip s).trans hs)) hreport
    · cases hattempt
  · rcases OctalEscape.attempt_cases (eq_some_of_settle ht) with ⟨digits, hdigits⟩ | hclean
    · exact ⟨s, digits, hdigits, .inl rfl⟩
    · exact absurd (hclean.trans hs) hreport

end Rule

namespace Quotation

variable {q : Quotation} {depth : Nat} {escapes : List Rule} {flags : Flags} {flag : Char}
  (hescapes : ∀ r ∈ escapes, r.IsEscape) (hlines : ∀ r ∈ escapes, r.claims '\n' = false)

include hescapes hlines

omit hescapes in
/-- An escape that is decoded without a report is a pass. -/
theorem Escaped.pass {bytes : List UInt8} (h : q.Escaped escapes flag w bytes)
    (hflag : q.escape = some flag) (hline : flag ≠ '\n') (hclosing : q.closing ≠ '\n') :
    q.Pass depth (flag :: w) depth := by
  have hnone : ∀ d ∈ ([] : List Char), CharClass.hexDigit.contains d = true :=
    fun d hd => absurd hd List.not_mem_nil
  have hends {c : Char} (hc : c ≠ '\n') : q.endsLine c = false := by
    simp [endsLine, hc]
  cases h with
  | closing => exact .escaped hflag (hends hclosing) hnone
  | flag => exact .escaped hflag (hends hline) hnone
  | @decoded c w r _ _ _ hr hw =>
    refine .escaped hflag (hends fun hc => ?_) hw.digits
    have hclaims := List.find?_some hr
    rw [hc, hlines r (List.mem_of_find?_eq_some hr)] at hclaims
    exact Bool.false_ne_true hclaims

/-- After an escape that is reported, the flag stands alone before a code point that is neither the
flag nor a closing delimiter, or the flag and a letter were consumed. -/
theorem unescape_of_report (hs : s.draft.diagnostics = #[])
    (ht : q.unescape (Rule.evalFirst flags escapes) flag s = .ok t)
    (hreport : t.draft.diagnostics ≠ #[]) :
    ∃ u problem, t = u.reject problem ∧ problem ≠ .unterminatedString ∧
      (u = s ∧ s.current? ≠ some q.closing ∧ q.isEscape s.current? = false ∨
        ∃ c, s.current? = some c ∧ c ≠ '\n' ∧ u = s.skip) := by
  rw [unescape] at ht
  split at ht
  · obtain rfl := Except.ok.inj ht
    exact absurd ((diagnostics_keep s).trans hs) hreport
  · rename_i hplain
    rw [Bool.or_eq_true, decide_eq_true_eq, not_or, Bool.not_eq_true] at hplain
    obtain ⟨⟨decoded, a⟩, ha, ht⟩ := exists_of_bind_eq_ok ht
    cases decoded with
    | false =>
      obtain rfl := Except.ok.inj ht
      have hsteady : Outcome.Steady (fun _ => True) s (Rule.evalFirst flags escapes s) :=
        Rule.steady_evalFirst (fun r hr => (hescapes r hr).isSteady) s
      rw [ha] at hsteady
      cases hsteady
      exact ⟨s, _, rfl, Problem.noConfusion, .inl ⟨rfl, hplain⟩⟩
    | true =>
      obtain rfl := Except.ok.inj ht
      obtain ⟨c, r, hc, hr, heval⟩ := Rule.exists_of_evalFirst hescapes ha
      have hmem := List.mem_of_find?_eq_some hr
      obtain ⟨u, digits, rfl, hu⟩ := (hescapes r hmem).eval_of_report hs heval hreport
      refine ⟨u, _, rfl, Problem.noConfusion, ?_⟩
      rcases hu with rfl | ⟨c, hc, hclaims, rfl⟩
      · exact .inl ⟨rfl, hplain⟩
      · refine .inr ⟨c, hc, fun hline => ?_, rfl⟩
        rw [hline, hlines r hmem] at hclaims
        exact Bool.false_ne_true hclaims

/-! ### Quoted texts -/

/-- An escape is passed, or it is reported and the recovery after it ends in one of the two ways. -/
theorem escape_ends (hclosing : q.closing ≠ '\n') (hline : q.escape ≠ some '\n')
    (h : q.IsWithin depth [] s) (hs : s.draft.diagnostics = #[]) (hc : s.current? = some flag)
    (hflag : q.escape = some flag)
    (ht : q.unescape (Rule.evalFirst flags escapes) flag s.skip = .ok t) :
    t.draft.diagnostics = #[] ∧ q.IsWithin depth [] t ∨
      t.draft.diagnostics ≠ #[] ∧
        (q.IsClosed (q.recover .keep t) ∨ q.IsCutOff (q.recover .keep t)) := by
  have hskip : s.skip.draft.diagnostics = #[] := (diagnostics_skip s).trans hs
  have hne : flag ≠ '\n' := fun heq => hline (heq ▸ hflag)
  by_cases hclean : t.draft.diagnostics = #[]
  · obtain ⟨w, bytes, hw, hrenders⟩ := exists_escaped hescapes hflag ht hclean
    exact .inl ⟨hclean, h.pass (hw.pass hlines hflag hne hclosing)
      (hrenders.skip_trans hc).consumes (hclean.trans hs.symm)⟩
  · refine .inr ⟨hclean, ?_⟩
    obtain ⟨u, problem, rfl, hproblem, hu⟩ := unescape_of_report hescapes hlines hskip ht hclean
    have hcut : q.IsWithin depth [flag] s.skip :=
      h.extend (decodes_skip hc).consumes (diagnostics_skip s)
    rcases hu with ⟨rfl, hplain⟩ | ⟨c, hc', hbreak, rfl⟩
    · exact recover_ends (.inl rfl) hcut hproblem (.inr ⟨by rw [hflag]; rfl, hplain⟩)
    · have hpass : q.Pass depth [flag, c] depth :=
        .escaped hflag (by simp [endsLine, hbreak]) fun d hd => absurd hd List.not_mem_nil
      have hpassed := hcut.pass hpass (decodes_skip hc').consumes (diagnostics_skip s.skip)
      exact recover_ends (.inl rfl) hpassed hproblem (.inl rfl)

/-- A body ends in one of the two ways. -/
theorem body_ends (hclosing : q.closing ≠ '\n') (hline : q.escape ≠ some '\n') (flags : Flags)
    (bound depth length : Nat) (hbound : s.upcoming.chars.length < bound)
    (h : q.IsWithin depth [] s) (hs : s.draft.diagnostics = #[]) :
    ∃ t, q.body (Rule.evalFirst flags escapes) bound depth length s = .ok t ∧
      (q.IsClosed t ∨ q.IsCutOff t) := by
  induction bound generalizing s depth length with
  | zero => exact absurd hbound (Nat.not_lt_zero _)
  | succ bound ih =>
    cases hc : s.current? with
    | none =>
      refine ⟨_, by rw [body, hc], .inr (h.isCutOff (.inl rfl) ?_)⟩
      exact fun c hc' => absurd (hc.symm.trans hc') (Option.some_ne_none c).symm
    | some c =>
      have hup := congrArg List.length (upcoming_of_current? hc)
      rw [List.length_cons] at hup
      rw [body, hc]
      dsimp only
      split
      · rename_i hend
        exact ⟨_, rfl, .inl (h.isClosed (hend.1 ▸ hc) fun _ => hend.2)⟩
      · rename_i hend
        split
        · rename_i hbreak
          exact ⟨_, rfl, .inr (h.isCutOff (.inl rfl) fun c' hc' =>
            Option.some.inj (hc.symm.trans hc') ▸ hbreak)⟩
        · rename_i hbreak
          split
          · exact ⟨_, rfl, recover_ends (.inr rfl) h Problem.noConfusion (.inl rfl)⟩
          · split
            · rename_i hescape
              have hflag := isEscape_some_iff.mp hescape
              have hsteady (s : Scanner) :
                  Outcome.Steady (fun _ => True) s (Rule.evalFirst flags escapes s) :=
                Rule.steady_evalFirst (fun r hr => (hescapes r hr).isSteady) s
              obtain ⟨w, t, ht, hw⟩ := exists_unescape hsteady q c s.skip
              rw [ht]
              change ∃ u, (if s.draft.diagnostics.size < t.draft.diagnostics.size then
                Except.ok (q.recover .keep t)
                else q.body (Rule.evalFirst flags escapes) bound depth (length + 1) t) = .ok u ∧ _
              rcases escape_ends hescapes hlines hclosing hline h hs hc hflag ht with
                ⟨hclean, hpassed⟩ | ⟨hreport, hends⟩
              · rw [if_neg (by simp [hclean])]
                have hlength := ((decodes_skip hc).consumes.trans hw.consumes).length_le
                exact ih depth (length + 1) (by simp at hlength; omega) hpassed hclean
              · rw [if_pos (by simpa [hs, Nat.pos_iff_ne_zero] using hreport)]
                exact ⟨_, rfl, hends⟩
            · rename_i hescape
              have hpass : q.Pass depth [c] _ := .plain (mt isEscape_some_iff.mpr hescape)
                (fun heq hzero => hend ⟨heq, hzero⟩) (Bool.eq_false_iff.mpr hbreak)
              have hkept := (decodes_keep hc).consumes
              have hlength := hkept.length_le
              exact ih (q.depthAfter depth c) (length + 1) (by simp at hlength; omega)
                (h.pass hpass hkept (diagnostics_keep s)) ((diagnostics_keep s).trans hs)

omit hescapes hlines

/-- A pass within a line has no line feed. -/
theorem Pass.lineFeed_not_mem {depth' : Nat} (h : q.Pass depth w depth')
    (hsingle : q.multiline = false) (hline : q.escape ≠ some '\n') : '\n' ∉ w := by
  have hends {c : Char} (hc : q.endsLine c = false) : '\n' ≠ c := by
    rintro rfl
    exact Bool.false_ne_true (hc.symm.trans (endsLine_eq_true_iff.mpr ⟨rfl, hsingle⟩))
  cases h with
  | plain _ _ hbreak => exact mt List.mem_singleton.mp (hends hbreak)
  | escaped hflag hbreak hdigits =>
    have hdigit : CharClass.hexDigit.contains '\n' = false := by decide
    simp only [List.mem_cons, not_or]
    exact ⟨fun heq => hline (heq ▸ hflag), hends hbreak, fun hmem =>
      Bool.false_ne_true (hdigit.symm.trans (hdigits _ hmem))⟩

theorem Passes.lineFeed_not_mem (h : q.Passes depth w) (hsingle : q.multiline = false)
    (hline : q.escape ≠ some '\n') : '\n' ∉ w := by
  induction h with
  | nil => exact List.not_mem_nil
  | pass _ hv ih =>
    rw [List.mem_append, not_or]
    exact ⟨ih, hv.lineFeed_not_mem hsingle hline⟩

theorem Holds.lineFeed_not_mem (h : q.Holds depth cut s) (hsingle : q.multiline = false)
    (hopening : q.opening ≠ '\n') (hline : q.escape ≠ some '\n') (hcut : '\n' ∉ cut) :
    '\n' ∉ s.draft.literal := by
  obtain ⟨w, hw, hliteral⟩ := h
  rw [hliteral, List.mem_cons, List.mem_append, not_or, not_or]
  exact ⟨hopening.symm, hw.lineFeed_not_mem hsingle hline, hcut⟩

/-- Let no delimiter and no escape flag be a line feed, and let no escape rule claim one. At the
opening delimiter where a token begins, the rule matches. The quoted text is either closed by a
delimiter and not reported as open, or it is cut off at the end of the text or line, which is the
last report. A text that has to stay on its line has no line feed, whatever escapes are in it. -/
theorem ends_closed_or_cut_off (q : Quotation) (hopening : q.opening ≠ '\n')
    (hclosing : q.closing ≠ '\n') (hline : q.escape ≠ some '\n') (escapes : List Rule)
    (hescapes : ∀ r ∈ escapes, r.IsEscape) (hlines : ∀ r ∈ escapes, r.claims '\n' = false)
    (flags : Flags) (s : Scanner) (hs : s.IsFresh) (hc : s.current? = some q.opening) :
    ∃ t, (Rule.quotation q escapes).eval flags s = .ok (true, t) ∧ s.Consumes t.draft.literal t ∧
      (q.IsClosed t ∧ ¬q.IsCutOff t ∨ q.IsCutOff t ∧ ¬q.IsClosed t) ∧
      (q.multiline = false → '\n' ∉ t.draft.literal) := by
  have hskip := decodes_skip hc
  have hempty : s.draft.literal = [] := by rw [hs.1, Draft.literal_empty]
  have hclean : (s.skip.setKind q.kind).draft.diagnostics = #[] :=
    hskip.diagnostics.trans (congrArg Draft.diagnostics hs.1)
  have hwithin : q.IsWithin 0 [] (s.skip.setKind q.kind) := by
    refine ⟨⟨[], .nil, ?_⟩, by simp [hclean]⟩
    exact hskip.consumes.literal.trans (by rw [hempty]; rfl)
  have hbound := (s.skip.setKind q.kind).two_mul_length_lt_allowance
  obtain ⟨t, ht, hends⟩ := body_ends hescapes hlines hclosing hline flags
    ((s.skip.setKind q.kind).allowance + q.maxLength.getD 0 + 1) 0 0 (by omega) hwithin
    hclean
  have heval : (Rule.quotation q escapes).eval flags s = .ok (true, t) := by
    rw [Rule.eval_quotation, scan, if_pos hc]
    dsimp only
    rw [ht]
    rfl
  have hconsumes : s.Consumes t.draft.literal t := by
    have hsound : Outcome.Sound (fun _ _ => True) s ((Rule.quotation q escapes).eval flags s) :=
      (Rule.IsPlain.quotation q hescapes).isSound s hs
    rw [heval] at hsound
    cases hsound with
    | @matched w _ _ hw _ =>
      have hliteral := hw.literal
      rw [hempty, List.nil_append] at hliteral
      exact hliteral ▸ hw
  refine ⟨t, heval, hconsumes, ?_, fun hsingle => ?_⟩
  · rcases hends with h | h
    · exact .inl ⟨h, h.not_isCutOff⟩
    · exact .inr ⟨h, fun hclosed => hclosed.not_isCutOff h⟩
  · rcases hends with h | h
    · obtain ⟨depth, hholds, -⟩ := h.holds
      exact hholds.lineFeed_not_mem hsingle hopening hline (mt List.mem_singleton.mp hclosing.symm)
    · obtain ⟨depth, cut, hcut, hholds⟩ := h.holds
      refine hholds.lineFeed_not_mem hsingle hopening hline ?_
      rcases hcut with rfl | rfl
      · exact List.not_mem_nil
      · exact mt Option.mem_toList.mp hline

/-- A quoted text with an invalid escape, in the recovery after which a flag precedes a line feed.
-/
def brokenSample : ByteSource :=
  { reads := [.bytes [0x22, 0x61, 0x5C, 0x6B, 0x5C, 0x0A, 0x62, 0x22]] }

/-- The quoted text is cut off before the line feed, which the flag does not protect. -/
theorem ends_closed_or_cut_off_brokenSample :
    (∀ r ∈ escapesSample, r.IsEscape) ∧ (∀ r ∈ escapesSample, r.claims '\n' = false) ∧
    (ofSource "f" brokenSample).IsFresh ∧
    ∃ t, (Rule.quotation (marked '"') escapesSample).eval .off (ofSource "f" brokenSample) =
        .ok (true, t) ∧ (marked '"').IsCutOff t ∧ t.current? = some '\n' ∧
      t.draft.literal = ['"', 'a', '\\', 'k', '\\'] := by
  have hescapes : ∀ r ∈ escapesSample, r.IsEscape := by
    simp [escapesSample, Rule.IsEscape]
  have hlines : ∀ r ∈ escapesSample, r.claims '\n' = false := by
    simp only [escapesSample, List.forall_mem_cons]
    exact ⟨rfl, rfl, rfl, fun r hr => absurd hr List.not_mem_nil⟩
  have hfresh := isFresh_ofSource "f" brokenSample
  obtain ⟨t, heval, -, hends, -⟩ := ends_closed_or_cut_off (marked '"') (by decide) (by decide)
    (by decide) escapesSample hescapes hlines .off (ofSource "f" brokenSample) hfresh rfl
  have hseen : ((Rule.quotation (marked '"') escapesSample).eval .off
      (ofSource "f" brokenSample)).map (fun p => (p.2.current?, p.2.draft.literal)) =
        .ok (some '\n', ['"', 'a', '\\', 'k', '\\']) := rfl
  rw [heval] at hseen
  obtain ⟨hcurrent, hliteral⟩ := Prod.mk.inj (Except.ok.inj hseen)
  refine ⟨hescapes, hlines, hfresh, t, heval, ?_, hcurrent, hliteral⟩
  rcases hends with ⟨hclosed, -⟩ | ⟨hcut, -⟩
  · obtain ⟨depth, ⟨w, -, heq⟩, -⟩ := hclosed.holds
    have hlast := congrArg List.getLast? (hliteral.symm.trans heq)
    rw [← List.cons_append, List.getLast?_concat] at hlast
    cases hlast
  · exact hcut

end Quotation

end Lexing
