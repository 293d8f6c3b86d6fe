import Lexing.Proofs.Scanner.Consumption
import Lexing.Proofs.Text.Utf8
import Lexing.Scanner.Emission

/-!
# What emitting does

Emitting touches neither the upcoming text nor the position. It empties the draft and begins a new
one where the scanner stands. A draft that has consumed text always gives a token with its literal
and its beginning, and at the end of the text an empty draft gives the report of a failure or the
end.

## Main results

* `Scanner.frame_emit` : what emitting leaves as it is.
* `Scanner.emit_of_literal_ne_nil` : the token of a draft that has consumed text.
* `Scanner.emit_of_failure`, `Scanner.emit_of_atEnd` : the tokens at the end of the text.
* `Scanner.kind_assembled` : the kind of a token.
* `Scanner.isBlank_assembled` : a token is blank if its draft has neither value nor kind.
-/

namespace Lexing

namespace Scanner

variable {s t : Scanner}

/-- The value of a draft is empty as a text only if it has no bytes. -/
theorem isEmpty_valueText : s.valueText.isEmpty ↔ s.draft.value = [] := by
  rw [valueText, String.isEmpty_iff, ← String.toList_eq_nil_iff, String.toList_ofList,
    Utf8.decodeLossy, List.map_eq_nil_iff, Utf8.marks_eq_nil_iff]

/-- The allowance of a loop exceeds twice the upcoming text. -/
theorem two_mul_length_lt_allowance (s : Scanner) :
    2 * s.upcoming.chars.length + 1 < s.allowance := by
  have hsize : s.upcoming.chars.length + 1 ≤ s.draft.latestChars.size + s.upcoming.size + 1 := by
    rw [s.upcoming.size_eq]
    omega
  have hsquare := Nat.le_mul_self (s.draft.latestChars.size + s.upcoming.size + 1)
  unfold allowance maxStalls
  dsimp only
  omega

/-! ### Checking the value -/

/-- Checking the value may only reject the draft. -/
theorem checkValue_eq (s : Scanner) :
    s.checkValue = s ∨ ∃ problem, s.checkValue = s.reject problem := by
  unfold checkValue
  split
  · exact .inl rfl
  · exact .inr ⟨_, rfl⟩

theorem checkValue_of_value_eq_nil (h : s.draft.value = []) : s.checkValue = s := by
  simp [checkValue, h, Utf8.decode?, Utf8.marks, Utf8.marksFrom]

/-- A value that is the encoding of a text is well formed. -/
theorem checkValue_of_value_eq {v : List Char} (h : s.draft.value = Utf8.encode v) :
    s.checkValue = s := by
  simp [checkValue, h, Utf8.decode?_encode]

theorem valueText_of_value_eq {v : List Char} (h : s.draft.value = Utf8.encode v) :
    s.valueText = String.ofList v := by
  rw [valueText, h, Utf8.decodeLossy_encode]

/-! ### The state after emitting -/

theorem emitDraft_eq (s : Scanner) :
    s.emitDraft = (s.checkValue.countStall s.checkValue.emittedKind).map fun n =>
      (s.checkValue.assembled, { s.checkValue with stalls := n }.restart) := by
  unfold emitDraft
  dsimp only
  cases s.checkValue.countStall s.checkValue.emittedKind <;> rfl

/-- Emitting reports a failure, or else it emits the draft, perhaps as the end of the text. -/
theorem emit_cases {token : Token} (h : s.emit = .ok (token, t)) :
    (∃ report, (token, t) = s.emitFailure report) ∨
      ∃ kind, (s.setKind? kind).emitDraft = .ok (token, t) := by
  unfold emit at h
  split at h
  · split at h
    · exact .inl ⟨_, (Except.ok.inj h).symm⟩
    · split at h
      · exact .inr ⟨some Kind.endOfText, h⟩
      · exact .inr ⟨none, h⟩
  · exact .inr ⟨none, h⟩

/-- Emitting leaves the upcoming text and the position as they are, and empties the draft. -/
theorem frame_emit {token : Token} (h : s.emit = .ok (token, t)) :
    t.window = s.window ∧ t.position = s.position ∧ t.previousKind = s.previousKind ∧
      (s.failure = none → t.failure = none) ∧ t.IsFresh := by
  rcases emit_cases h with ⟨report, hr⟩ | ⟨kind, hk⟩
  · obtain ⟨-, rfl⟩ := Prod.mk.inj hr
    exact ⟨rfl, rfl, rfl, fun _ => rfl, rfl, rfl⟩
  · have hset : ∃ d, s.setKind? kind = { s with draft := d } := by cases kind <;> exact ⟨_, rfl⟩
    obtain ⟨d, hset⟩ := hset
    rw [emitDraft_eq, hset] at hk
    cases hc : { s with draft := d }.checkValue.countStall
        { s with draft := d }.checkValue.emittedKind with
    | error f => simp [hc, Except.map] at hk
    | ok n =>
      simp only [hc, Except.map, Except.ok.injEq, Prod.mk.injEq] at hk
      obtain ⟨-, rfl⟩ := hk
      rcases { s with draft := d }.checkValue_eq with hs | ⟨problem, hs⟩ <;> rw [hs] <;>
        exact ⟨rfl, rfl, rfl, id, rfl, rfl⟩

/-- Emitting does not bring a failure about. -/
theorem IsClean.emit {token : Token} (hs : s.IsClean) (h : s.emit = .ok (token, t)) :
    t.IsClean := by
  obtain ⟨hwindow, -, -, hfailure, -⟩ := frame_emit h
  exact ⟨hfailure hs.1, hwindow ▸ hs.2⟩

/-- What is emitted depends on the window only through whether the end of the text is reached. -/
theorem emit_withWindow {w : Window} (h : w.current? = s.current?) :
    { s with window := w }.emit = s.emit.map fun (token, t) => (token, { t with window := w }) := by
  have draft_case (u : Scanner) : { u with window := w }.emitDraft =
      u.emitDraft.map fun (token, t) => (token, { t with window := w }) := by
    have hcheck : { u with window := w }.checkValue = { u.checkValue with window := w } := by
      unfold checkValue
      simp only [valueText]
      split <;> rfl
    have hstall : { u.checkValue with window := w }.countStall
        { u.checkValue with window := w }.emittedKind =
          u.checkValue.countStall u.checkValue.emittedKind := rfl
    rw [emitDraft_eq, emitDraft_eq, hcheck, hstall]
    cases u.checkValue.countStall u.checkValue.emittedKind <;> rfl
  have hend : { s with window := w }.atEnd = s.atEnd := congrArg Option.isNone h
  unfold emit
  rw [hend]
  simp only
  split
  · split
    · rfl
    · split
      · exact draft_case (s.setKind Kind.endOfText)
      · exact draft_case s
  · exact draft_case s

/-! ### The token -/

/-- A draft that has consumed text becomes a token, whatever was emitted before. -/
theorem emit_of_literal_ne_nil (h : s.draft.literal ≠ []) :
    s.emit = .ok (s.checkValue.assembled, { s.checkValue with stalls := 0 }.restart) := by
  have hunread : s.draft.isUnread = false := by simpa [Draft.isUnread_eq] using h
  have hchecked : s.checkValue.draft.isUnread = false := by
    rcases s.checkValue_eq with hs | ⟨problem, hs⟩ <;> rw [hs] <;> exact hunread
  simp [emit, hunread, emitDraft_eq, countStall, hchecked, Except.map]

/-- A failure that was noticed is reported by the next empty draft. -/
theorem emit_of_failure {report : Diagnostic} (hdraft : s.draft = {})
    (hf : s.failure = some report) : s.emit = .ok (s.emitFailure report) := by
  simp [emit, hdraft, hf, Draft.isUnread, Stretch.isEmpty]

/-- At the end of the text an empty draft becomes the end token. -/
theorem emit_eq_of_atEnd (hdraft : s.draft = {}) (hf : s.failure = none) (hend : s.atEnd) :
    s.emit = .ok ((s.setKind Kind.endOfText).assembled,
      { s.setKind Kind.endOfText with stalls := 0 }.restart) := by
  have hvalue : (s.setKind Kind.endOfText).draft.value = [] := by
    rw [setKind, hdraft]
    rfl
  have hkind : (s.setKind Kind.endOfText).emittedKind = Kind.endOfText := rfl
  simp only [emit, hdraft, hf, hend, Draft.isUnread, Stretch.isEmpty, Stretch.chars_empty,
    List.isEmpty_nil, ↓reduceIte, emitDraft_eq, checkValue_of_value_eq_nil hvalue, hkind,
    countStall, Bool.or_true, decide_true, Except.map]

theorem emit_of_atEnd (hdraft : s.draft = {}) (hf : s.failure = none) (hend : s.atEnd) :
    ∃ token t, s.emit = .ok (token, t) ∧ token.isEnd ∧ t.failure = none :=
  ⟨_, _, emit_eq_of_atEnd hdraft hf hend, rfl, hf⟩

/-- The kind that the draft was given is that of its token. -/
theorem kind_assembled_of_kind_ne (h : s.draft.kind ≠ "") :
    s.assembled.kind = s.draft.kind := by
  simp [assembled, emittedKind, h]

/-- The kind that the draft was given is that of the token, unless the value is malformed. -/
theorem kind_assembled (h : s.draft.kind ≠ "") :
    s.checkValue.assembled.kind = s.draft.kind ∨ s.checkValue.assembled.kind = Kind.illegal := by
  rcases s.checkValue_eq with hs | ⟨problem, hs⟩ <;> rw [hs]
  · exact .inl (kind_assembled_of_kind_ne h)
  · exact .inr rfl

/-- Without a kind of its own the token has its value as kind, unless the value is malformed. -/
theorem kind_assembled_of_kind_eq (h : s.draft.kind = "") :
    s.checkValue.assembled.kind = s.valueText ∨ s.checkValue.assembled.kind = Kind.illegal := by
  rcases s.checkValue_eq with hs | ⟨problem, hs⟩ <;> rw [hs]
  · exact .inl (by simp [assembled, emittedKind, h])
  · exact .inr rfl

/-- Text that was kept as it is becomes the kind of its token. -/
theorem kind_assembled_of_value_eq {w : List Char} (hkind : s.draft.kind = "")
    (hvalue : s.draft.value = Utf8.encode w) :
    s.checkValue.assembled.kind = String.ofList w := by
  simp [checkValue_of_value_eq hvalue, assembled, emittedKind, hkind, valueText_of_value_eq hvalue]

/-- A token is blank if its draft has neither value nor kind. -/
theorem isBlank_assembled :
    s.checkValue.assembled.isBlank ↔ s.draft.value = [] ∧ s.draft.kind = "" := by
  by_cases hvalue : s.draft.value = []
  · have htext : s.valueText = "" := by
      simpa [String.isEmpty_iff] using isEmpty_valueText.mpr hvalue
    rw [checkValue_of_value_eq_nil hvalue]
    simp only [assembled, Token.isBlank, emittedKind, htext, hvalue]
    by_cases hkind : s.draft.kind = "" <;> simp [hkind]
  · have hchecked : s.checkValue.draft.value = s.draft.value := by
      rcases s.checkValue_eq with hs | ⟨problem, hs⟩
      · rw [hs]
      · rw [hs]
        rfl
    have htext : ¬s.checkValue.valueText.isEmpty := by
      rw [isEmpty_valueText, hchecked]
      exact hvalue
    simp [assembled, Token.isBlank, hvalue, htext]

end Scanner

end Lexing
