import Lexing.Proofs.Scanner.Operation

/-!
# Rewinding is exact

An operation is tentative if it neither begins a new draft nor gives text back: what it does is
taken back by rewinding. Rewinding after tentative operations on a scanner with an empty draft leads
back to a scanner that shows the same text, positions and draft.

The scanner itself may have changed. Looking ahead decodes more of the source, and moving on to the
end notices a failure behind the text. The first cannot be observed: two scanners with equal texts
and endings give the same replies to every sequence of operations. The second can, so that the
scanners are interchangeable only if the source does not fail.

## Main definitions

* `Operation.IsTentative`, `Operation.BeginsDraft` : what an operation may do to the draft.
* `Scanner.transcript` : all that a sequence of operations lets one observe.
* `Scanner.Equivalent` : the same state up to what was decoded ahead.

## Main results

* `Operation.equivalent_perform`, `Scanner.Equivalent.transcript_eq` : equivalent scanners are
  interchangeable.
-/

namespace Lexing

namespace Operation

/-- The operation adds to the draft or looks at the text. -/
def IsTentative : Operation → Prop
  | move m => m.IsForward
  | emit => False
  | _ => True

/-- The operation empties the draft and begins a new one where the scanner then stands. -/
def BeginsDraft (o : Operation) : Prop :=
  o = emit ∨ o = move .discard

end Operation

namespace Scanner

/-- The replies to a sequence of operations, and the fault that ends it if there is one. -/
def transcript : List Operation → Scanner → List Reply × Option Fault
  | [], _ => ([], none)
  | o :: os, s =>
    match o.perform s with
    | .ok (reply, t) => (reply :: (t.transcript os).1, (t.transcript os).2)
    | .error fault => ([], some fault)

/-! ### Equivalent scanners -/

/-- The scanners differ at most in how far the source was decoded. -/
structure Equivalent (s t : Scanner) : Prop where
  eq : t = { s with window := t.window }
  text : t.window.text.chars = s.window.text.chars
  ending : t.window.ending = s.window.ending

namespace Equivalent

variable {s t : Scanner}

/-- Scanners that show the same and have the same failure ahead are equivalent. -/
theorem of_view (hview : t.view = s.view) (hfailure : t.failure = s.failure)
    (hending : t.window.ending = s.window.ending) : s.Equivalent t := by
  obtain ⟨w, f, p, b, d, k, n⟩ := s
  obtain ⟨w', f', p', b', d', k', n'⟩ := t
  simp only [view, View.mk.injEq] at hview hfailure
  obtain ⟨htext, rfl, rfl, rfl, rfl, rfl⟩ := hview
  exact ⟨by rw [hfailure], htext, hending⟩

theorem current?_eq (h : s.Equivalent t) : t.current? = s.current? := by
  rw [Scanner.current?_eq, Scanner.current?_eq]
  exact congrArg List.head? h.text

/-- What changes only the draft keeps scanners equivalent. -/
theorem withDraft (h : s.Equivalent t) (f : Draft → Draft) :
    Equivalent { s with draft := f s.draft } { t with draft := f t.draft } :=
  ⟨by conv_lhs => rw [h.eq], h.text, h.ending⟩

/-- Equivalent scanners notice a failure at the same moment. -/
theorem advance (h : s.Equivalent t) (c : Char) : (s.advance c).Equivalent (t.advance c) := by
  have hshift : (t.window.shift.1.ending, t.window.shift.2) =
      (s.window.shift.1.ending, s.window.shift.2) := by
    rw [Window.ending_shift, Window.ending_shift, h.text, h.ending]
  obtain ⟨hending, hcause⟩ := Prod.mk.inj hshift
  refine of_view ?_ ?_ (by simpa using hending)
  · simp only [view, View.mk.injEq, upcoming_advance, position_advance, start_advance,
      draft_advance, previousKind_advance, stalls_advance]
    refine ⟨congrArg List.tail h.text, ?_, ?_, ?_, ?_, ?_⟩ <;> rw [h.eq]
  · rw [failure_advance, failure_advance, hcause, h.eq]

theorem skip (h : s.Equivalent t) : s.skip.Equivalent t.skip := by
  unfold Scanner.skip
  rw [h.current?_eq]
  cases s.current? with
  | none => exact h
  | some c => exact (h.withDraft (·.pushLiteral c)).advance c

theorem keep (h : s.Equivalent t) : s.keep.Equivalent t.keep := by
  unfold Scanner.keep
  rw [h.current?_eq]
  cases s.current? with
  | none => exact h
  | some c => exact (h.withDraft fun d => (d.pushChar c).pushLiteral c).advance c

theorem reject (h : s.Equivalent t) (problem : Problem) :
    (s.reject problem).Equivalent (t.reject problem) := by
  refine ⟨?_, h.text, h.ending⟩
  conv_lhs => rw [h.eq]
  rfl

theorem restart (h : s.Equivalent t) : s.restart.Equivalent t.restart := by
  refine ⟨?_, h.text, h.ending⟩
  conv_lhs => rw [h.eq]
  rfl

theorem discard (h : s.Equivalent t) : s.discard.Equivalent t.discard := by
  unfold Scanner.discard
  rw [h.current?_eq]
  cases s.current? with
  | none => exact h.restart
  | some c => exact (h.advance c).restart

theorem rewind (h : s.Equivalent t) : s.rewind.Equivalent t.rewind := by
  refine ⟨?_, ?_, ?_⟩
  · have hstart : t.start = s.start := by rw [h.eq]
    conv_lhs => rw [h.eq]
    simp only [Scanner.rewind, hstart]
    rw [h.eq]
  · have hliteral : t.draft.literal = s.draft.literal := by rw [h.eq]
    have hs := s.upcoming_rewind
    have ht := t.upcoming_rewind
    rw [hliteral] at ht
    exact ht.trans ((congrArg (s.draft.literal ++ ·) h.text).trans hs.symm)
  · rw [ending_rewind, ending_rewind, h.ending]

/-- Equivalent scanners give the same code point, and looking at it keeps them equivalent. -/
theorem peek (h : s.Equivalent t) (i : Int) :
    (t.peek i).1 = (s.peek i).1 ∧ (s.peek i).2.Equivalent (t.peek i).2 := by
  cases i with
  | ofNat n =>
    refine ⟨?_, ?_, ?_, ?_⟩
    · rw [Scanner.peek, Scanner.peek, Window.fst_peekAt, Window.fst_peekAt, h.text]
    · rw [Scanner.peek, Scanner.peek]
      conv_lhs => rw [h.eq]
    · simpa [Scanner.peek] using h.text
    · simpa [Scanner.peek] using h.ending
  | negSucc n => exact ⟨by rw [Scanner.peek, Scanner.peek, h.eq], h⟩

/-- Equivalent scanners emit the same token or are at the same fault. -/
theorem emit (h : s.Equivalent t) :
    t.emit = s.emit.map fun (token, u) => (token, { u with window := t.window }) := by
  conv_lhs => rw [h.eq]
  exact emit_withWindow h.current?_eq

end Equivalent

end Scanner

/-- Equivalent scanners give the same reply to an operation and stay equivalent, or are at the same
fault. -/
theorem Operation.equivalent_perform {s t : Scanner} (h : s.Equivalent t) (o : Operation) :
    (∃ fault, o.perform s = .error fault ∧ o.perform t = .error fault) ∨
      ∃ reply s' t', o.perform s = .ok (reply, s') ∧ o.perform t = .ok (reply, t') ∧
        s'.Equivalent t' := by
  cases o with
  | move m =>
    refine .inr ⟨_, _, _, rfl, rfl, ?_⟩
    cases m with
    | keep => exact h.keep
    | skip => exact h.skip
    | discard => exact h.discard
    | rewind => exact h.rewind
  | pushChar c => exact .inr ⟨_, _, _, rfl, rfl, h.withDraft (·.pushChar c)⟩
  | pushByte b => exact .inr ⟨_, _, _, rfl, rfl, h.withDraft (·.pushByte b)⟩
  | setKind kind => exact .inr ⟨_, _, _, rfl, rfl, h.withDraft fun d => { d with kind }⟩
  | reject problem => exact .inr ⟨_, _, _, rfl, rfl, h.reject problem⟩
  | emit =>
    have ht := h.emit
    cases hs : s.emit with
    | error fault => exact .inl ⟨fault, by simp [perform, hs, Except.map], by
        simp [perform, ht, hs, Except.map]⟩
    | ok p =>
      obtain ⟨token, u⟩ := p
      have hwindow := (Scanner.frame_emit hs).1
      refine .inr ⟨.token token, u, { u with window := t.window },
        by simp [perform, hs, Except.map], by simp [perform, ht, hs, Except.map], rfl, ?_, ?_⟩
      · rw [hwindow]
        exact h.text
      · rw [hwindow]
        exact h.ending
  | peek i =>
    obtain ⟨hreply, hequiv⟩ := h.peek i
    refine .inr ⟨_, _, _, rfl, ?_, hequiv⟩
    rw [perform, hreply]

namespace Scanner

/-- Equivalent scanners cannot be told apart by any sequence of operations. -/
theorem Equivalent.transcript_eq {s t : Scanner} (h : s.Equivalent t) (os : List Operation) :
    t.transcript os = s.transcript os := by
  induction os generalizing s t with
  | nil => rfl
  | cons o os ih =>
    rcases Operation.equivalent_perform h o with ⟨fault, hs, ht⟩ | ⟨reply, s', t', hs, ht, h'⟩
    · simp [transcript, hs, ht]
    · simp [transcript, hs, ht, ih h']

/-! ### Tentative operations -/

variable {s t : Scanner} {os : List Operation} {replies : List Reply}

theorem consumes_perform {o : Operation} (ho : o.IsTentative) (s : Scanner) :
    ∃ reply t w, o.perform s = .ok (reply, t) ∧ s.Consumes w t := by
  cases o with
  | move m => exact ⟨_, _, _, rfl, consumes_apply ho s⟩
  | pushChar c => exact ⟨_, _, _, rfl, (Consumes.refl s).pushChar c⟩
  | pushByte b => exact ⟨_, _, _, rfl, (Consumes.refl s).pushByte b⟩
  | setKind kind => exact ⟨_, _, _, rfl, (Consumes.refl s).setKind kind⟩
  | reject problem => exact ⟨_, _, _, rfl, (Consumes.refl s).reject problem⟩
  | emit => exact ho.elim
  | peek i => exact ⟨_, _, _, rfl, s.consumes_peek i⟩

/-- Tentative operations are no fault and consume text within the draft. -/
theorem consumes_performAll (hos : ∀ o ∈ os, o.IsTentative) (s : Scanner) :
    ∃ replies t w, s.performAll os = .ok (replies, t) ∧ s.Consumes w t := by
  induction os generalizing s with
  | nil => exact ⟨[], s, [], rfl, .refl s⟩
  | cons o os ih =>
    obtain ⟨reply, t, v, ho, hv⟩ := consumes_perform (hos o List.mem_cons_self) s
    obtain ⟨replies, u, w, hrest, hw⟩ := ih (fun o' ho' => hos o' (List.mem_cons_of_mem o ho')) t
    exact ⟨reply :: replies, u, v ++ w, by simp [performAll, ho, hrest, bind, Except.bind, pure,
      Except.pure], hv.trans hw⟩

/-! ### The states in which drafts begin -/

theorem isFresh_ofStream (name : String) (input : CharStream) : (ofStream name input).IsFresh := by
  simp [ofStream, IsFresh]

theorem isFresh_perform {o : Operation} {reply : Reply} (ho : o.BeginsDraft)
    (h : o.perform s = .ok (reply, t)) : t.IsFresh := by
  rcases ho with rfl | rfl
  · cases he : s.emit with
    | error fault => simp [Operation.perform, he, Except.map] at h
    | ok p =>
      simp only [Operation.perform, he, Except.map, Except.ok.injEq, Prod.mk.injEq] at h
      obtain ⟨-, rfl⟩ := h
      exact (frame_emit he).2.2.2.2
  · obtain ⟨-, rfl⟩ := Prod.mk.inj (Except.ok.inj h)
    change s.discard.IsFresh
    unfold discard
    split <;> exact ⟨rfl, rfl⟩

/-- A draft is empty after a last operation that begins one. -/
theorem isFresh_performAll (hs : s.IsFresh) (hos : ∀ o ∈ os.getLast?, o.BeginsDraft)
    (h : s.performAll os = .ok (replies, t)) : t.IsFresh := by
  have run : ∀ {os : List Operation} {s : Scanner} {replies : List Reply},
      (os = [] → s.IsFresh) → (∀ o ∈ os.getLast?, o.BeginsDraft) →
        s.performAll os = .ok (replies, t) → t.IsFresh := by
    intro os
    induction os with
    | nil =>
      intro s replies hs _ h
      obtain ⟨-, rfl⟩ := Prod.mk.inj (Except.ok.inj h)
      exact hs rfl
    | cons o os ih =>
      intro s replies _ hlast h
      obtain ⟨reply, rest, u, -, ho, hrest⟩ := performAll_cons h
      refine ih (fun hnil => ?_) (fun o' ho' => hlast o' ?_) hrest
      · subst hnil
        exact isFresh_perform (hlast o rfl) ho
      · rw [List.getLast?_cons, Option.mem_def.mp ho']
        rfl
  exact run (fun _ => hs) hos h

/-! ### Clean scanners -/

/-- A scanner over a stream without failure is clean. -/
theorem isClean_ofStream (name : String) {input : CharStream} (h : input.drain.2 = none) :
    (ofStream name input).IsClean := by
  obtain ⟨hending, hcause⟩ := Window.ending_ofStream h
  constructor
  · simp [ofStream, hcause, notice]
  · simpa [ofStream] using hending

theorem IsClean.discard (h : s.IsClean) : s.discard.IsClean := by
  unfold Scanner.discard
  split
  · exact h.advance _
  · exact h

theorem IsClean.perform {o : Operation} {reply : Reply} (hs : s.IsClean)
    (h : o.perform s = .ok (reply, t)) : t.IsClean := by
  have of_tentative (ho : o.IsTentative) : t.IsClean := by
    obtain ⟨reply', t', w, h', hw⟩ := consumes_perform ho s
    obtain ⟨-, rfl⟩ := Prod.mk.inj (Except.ok.inj (h'.symm.trans h))
    exact hw.isClean hs
  match o, h, of_tentative with
  | .move .keep, _, hten => exact hten (.inl rfl)
  | .move .skip, _, hten => exact hten (.inr rfl)
  | .move .discard, h, _ =>
    obtain ⟨-, rfl⟩ := Prod.mk.inj (Except.ok.inj h)
    exact hs.discard
  | .move .rewind, h, _ =>
    obtain ⟨-, rfl⟩ := Prod.mk.inj (Except.ok.inj h)
    exact ⟨hs.1, s.ending_rewind.trans hs.2⟩
  | .emit, h, _ =>
    cases he : s.emit with
    | error fault => simp [Operation.perform, he, Except.map] at h
    | ok p =>
      simp only [Operation.perform, he, Except.map, Except.ok.injEq, Prod.mk.injEq] at h
      obtain ⟨-, rfl⟩ := h
      exact hs.emit he
  | .pushChar _, _, hten | .pushByte _, _, hten | .setKind _, _, hten | .reject _, _, hten
  | .peek _, _, hten => exact hten trivial

theorem IsClean.performAll (hs : s.IsClean) (h : s.performAll os = .ok (replies, t)) :
    t.IsClean := by
  induction os generalizing s replies with
  | nil =>
    obtain ⟨-, rfl⟩ := Prod.mk.inj (Except.ok.inj h)
    exact hs
  | cons o os ih =>
    obtain ⟨reply, rest, u, -, ho, hrest⟩ := performAll_cons h
    exact ih (hs.perform ho) hrest

/-! ### Rewinding -/

theorem peek?_congr (h : t.view = s.view) (i : Int) : t.peek? i = s.peek? i := by
  cases i with
  | ofNat n =>
    have ht := t.peek?_natCast n
    have hs := s.peek?_natCast n
    rw [show t.upcoming.chars = s.upcoming.chars from congrArg View.upcoming h] at ht
    exact ht.trans hs.symm
  | negSucc n =>
    rw [peek?_negSucc, peek?_negSucc]
    rw [show t.draft = s.draft from congrArg View.draft h]

/-- Rewinding after tentative operations on a scanner that stands where a draft begins shows the
same as before and an empty draft. If the stream does not fail, no sequence of operations can tell
that anything was done. -/
theorem rewind_restores_draft_start (name : String) (input : CharStream)
    {before tentative : List Operation} (hbefore : ∀ o ∈ before.getLast?, o.BeginsDraft)
    (htentative : ∀ o ∈ tentative, o.IsTentative) {replies : List Reply} {s : Scanner}
    (h : (ofStream name input).performAll before = .ok (replies, s)) :
    ∃ replies' t, s.performAll tentative = .ok (replies', t) ∧
      t.rewind.current? = s.current? ∧ t.rewind.following? = s.following? ∧
      (∀ i, t.rewind.peek? i = s.peek? i) ∧
      t.rewind.position = s.position ∧ t.rewind.start = s.start ∧ t.rewind.draft = {} ∧
      (input.drain.2 = none → ∀ further, t.rewind.transcript further = s.transcript further) := by
  have hfresh := isFresh_performAll (isFresh_ofStream name input) hbefore h
  obtain ⟨replies', t, w, ht, hw⟩ := consumes_performAll htentative s
  obtain ⟨hview, hclean⟩ := hw.restores_rewind hfresh
  have hupcoming : t.rewind.upcoming.chars = s.upcoming.chars := congrArg View.upcoming hview
  refine ⟨replies', t, ht, ?_, ?_, peek?_congr hview, congrArg View.position hview,
    congrArg View.start hview, rfl, fun hinput further => ?_⟩
  · rw [current?_eq, current?_eq, hupcoming]
  · rw [following?_eq, following?_eq, hupcoming]
  · have hs := (isClean_ofStream name hinput).performAll h
    have ht := hclean hs
    have hequiv : s.Equivalent t.rewind :=
      .of_view hview (ht.1.trans hs.1.symm) (ht.2.trans hs.2.symm)
    exact hequiv.transcript_eq further

/-- A source of three code points that does not fail. -/
def cleanSample : ByteSource :=
  { reads := [.bytes [0x61, 0x62, 0xC3], .interrupted, .bytes [0xA9]] }

/-- After one token, operations that move past the end of the text, look beyond it and report a
problem are taken back. -/
theorem rewind_restores_cleanSample :
    ∃ replies s, (ofStream "f" (.ofSource cleanSample)).performAll [.move .keep, .emit] =
        .ok (replies, s) ∧
      ∃ replies' t, s.performAll [.move .keep, .peek 2, .reject .unterminatedString, .move .skip,
          .move .skip, .pushByte 0xFF] = .ok (replies', t) ∧
        t.rewind.current? = s.current? ∧ t.rewind.position = s.position ∧
        ∀ further, t.rewind.transcript further = s.transcript further := by
  obtain ⟨replies, s, h⟩ : ∃ replies s, (ofStream "f" (.ofSource cleanSample)).performAll
      [.move .keep, .emit] = .ok (replies, s) := ⟨_, _, rfl⟩
  have hbefore : ∀ o ∈ [Operation.move .keep, .emit].getLast?, o.BeginsDraft := by
    intro o ho
    exact .inl (Option.some.inj ho).symm
  have htentative : ∀ o ∈ [Operation.move .keep, .peek 2, .reject .unterminatedString, .move .skip,
      .move .skip, .pushByte 0xFF], o.IsTentative := by
    simp [Operation.IsTentative, Move.IsForward]
  obtain ⟨replies', t, ht, hcurrent, -, -, hposition, -, -, hfurther⟩ :=
    rewind_restores_draft_start "f" _ hbefore htentative h
  exact ⟨replies, s, h, replies', t, ht, hcurrent, hposition, hfurther rfl⟩

end Scanner

end Lexing
