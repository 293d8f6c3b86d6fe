import Lexing.Input.Window
import Lexing.Proofs.Input.Stream

/-!
# The text of a window

Everything that a window shows, now or later, is a function of the text from the current code point
on and of the failure behind it. The two code points of the window are the first two of the text,
moving removes the first one, putting one back adds a first one, and looking ahead changes nothing.

A failure behind the text is handed out by the step that leaves a single code point, because that
step asks the stream for a second one.

## Main results

* `Window.current?_eq`, `Window.following?_eq`, `Window.fst_peekAt` : what a window shows.
* `Window.chars_shift`, `Window.chars_pushBack`, `Window.chars_peekAt` : the text after a step.
* `Window.ending_shift`, `Window.snd_shift` : where a failure goes.
-/

namespace Lexing.Window

/-- The cause of the failure behind the text that was not handed out, if there is one. -/
def ending (w : Window) : Option String :=
  w.input.drain.2

/-! ### What a window shows -/

theorem chars_text (w : Window) :
    w.text.chars = w.current?.toList ++ (w.following?.toList ++ w.input.drain.1) := by
  simp [text]

/-- The text behind a window whose second code point is missing is empty. -/
theorem drain_input {w : Window} (h : w.following? = none) : w.input.drain = ([], none) :=
  (w.isSpent_input h).drain

/-- The current code point is the first of the text. -/
theorem current?_eq (w : Window) : w.current? = w.text.chars.head? := by
  rw [chars_text]
  cases hc : w.current? with
  | some c => rfl
  | none =>
    have hf := w.following?_eq_none hc
    simp [hf, drain_input hf]

/-- The code point after the current one is the second of the text. -/
theorem following?_eq (w : Window) : w.following? = w.text.chars[1]? := by
  rw [chars_text]
  cases hf : w.following? with
  | none => cases w.current? <;> simp [drain_input hf]
  | some d =>
    cases hc : w.current? with
    | none => simp [w.following?_eq_none hc] at hf
    | some c => rfl

/-- The code point `n` places after the current one is the one at that place of the text. -/
@[simp]
theorem fst_peekAt (w : Window) (n : Nat) : (w.peekAt n).1 = w.text.chars[n]? := by
  match n with
  | 0 => rw [peekAt, current?_eq, List.head?_eq_getElem?]
  | 1 => rw [peekAt, following?_eq]
  | n + 2 =>
    rw [peekAt, CharStream.fst_peekAt, chars_text]
    cases hf : w.following? with
    | none => cases w.current? <;> simp [drain_input hf]
    | some d =>
      cases hc : w.current? with
      | none => simp [w.following?_eq_none hc] at hf
      | some c => rfl

/-- A failure is behind at least two code points. -/
theorem ending_eq_none {w : Window} (h : w.text.chars.length ≤ 1) : w.ending = none := by
  have hf : w.following? = none := by
    rw [following?_eq]
    exact List.getElem?_eq_none h
  simp [ending, drain_input hf]

/-! ### Steps -/

@[simp]
theorem chars_peekAt (w : Window) (n : Nat) : (w.peekAt n).2.text.chars = w.text.chars := by
  match n with
  | 0 | 1 => rfl
  | n + 2 => simp [peekAt, chars_text]

@[simp]
theorem ending_peekAt (w : Window) (n : Nat) : (w.peekAt n).2.ending = w.ending := by
  match n with
  | 0 | 1 => rfl
  | n + 2 => simp [peekAt, ending]

@[simp]
theorem chars_pushBack (c : Char) (w : Window) : (w.pushBack c).text.chars = c :: w.text.chars := by
  unfold pushBack
  split
  · rename_i h
    simp [chars_text, h, CharStream.drain_putBack]
  · rename_i h
    simp [chars_text, h]

@[simp]
theorem ending_pushBack (c : Char) (w : Window) : (w.pushBack c).ending = w.ending := by
  unfold pushBack
  split <;> simp [ending, CharStream.drain_putBack]

@[simp]
theorem chars_reading (c : Char) (input : CharStream) :
    (reading c input).1.text.chars = c :: input.drain.1 := by
  unfold reading
  split
  case h_1 h => simp [chars_text, CharStream.drain_of_next_some h]
  case h_2 h =>
    have hspent := CharStream.isSpent_of_next h (by simp)
    simp [chars_text, hspent.drain, CharStream.drain_of_next_none h]
  case h_3 h =>
    have hspent := CharStream.isSpent_of_next h (by simp)
    simp [chars_text, hspent.drain, CharStream.drain_of_next_error h]

/-- Reading hands out the failure of a stream that has no code point before it. -/
theorem ending_reading (c : Char) (input : CharStream) :
    ((reading c input).1.ending, (reading c input).2) =
      if input.drain.1 = [] then (none, input.drain.2) else (input.drain.2, none) := by
  unfold reading
  split
  case h_1 h => simp [ending, CharStream.drain_of_next_some h]
  case h_2 h =>
    have hspent := CharStream.isSpent_of_next h (by simp)
    simp [ending, hspent.drain, CharStream.drain_of_next_none h]
  case h_3 h =>
    have hspent := CharStream.isSpent_of_next h (by simp)
    simp [ending, hspent.drain, CharStream.drain_of_next_error h]

@[simp]
theorem chars_shift (w : Window) : w.shift.1.text.chars = w.text.chars.tail := by
  unfold shift
  split
  case h_1 c h =>
    cases hc : w.current? with
    | none => simp [w.following?_eq_none hc] at h
    | some d => simp [chars_text w, hc, h]
  case h_2 h => cases hc : w.current? <;> simp [chars_text, drain_input h, hc, h]

/-- Moving on hands out the failure behind the text if a single code point is left. -/
theorem ending_shift (w : Window) :
    (w.shift.1.ending, w.shift.2) =
      if w.text.chars.length ≤ 2 then (none, w.ending) else (w.ending, none) := by
  unfold shift
  split
  case h_1 c h =>
    have hc : ∃ d, w.current? = some d := by
      cases hc : w.current? with
      | none => simp [w.following?_eq_none hc] at h
      | some d => exact ⟨d, rfl⟩
    obtain ⟨d, hd⟩ := hc
    rw [ending_reading, chars_text, hd, h, ending]
    cases w.input.drain.1 <;> simp
  case h_2 h =>
    simp [ending, drain_input h]

/-! ### Construction -/

@[simp]
theorem chars_ofStream (input : CharStream) :
    (ofStream input).1.text.chars = input.drain.1 := by
  unfold ofStream
  split
  case h_1 h => simp [CharStream.drain_of_next_some h]
  case h_2 h =>
    have hspent := CharStream.isSpent_of_next h (by simp)
    simp [chars_text, hspent.drain, CharStream.drain_of_next_none h]
  case h_3 h =>
    have hspent := CharStream.isSpent_of_next h (by simp)
    simp [chars_text, hspent.drain, CharStream.drain_of_next_error h]

/-- The window of a stream hands out the failure behind the text if there is at most one code point
before it. -/
theorem ending_ofStream_eq (input : CharStream) :
    ((ofStream input).1.ending, (ofStream input).2) =
      if input.drain.1.length ≤ 1 then (none, input.drain.2) else (input.drain.2, none) := by
  unfold ofStream
  split
  case h_1 c t hn =>
    rw [ending_reading, CharStream.drain_of_next_some hn]
    cases t.drain.1 <;> simp
  case h_2 t hn =>
    have hspent := CharStream.isSpent_of_next hn (by simp)
    simp [ending, hspent.drain, CharStream.drain_of_next_none hn]
  case h_3 cause t hn =>
    have hspent := CharStream.isSpent_of_next hn (by simp)
    simp [ending, hspent.drain, CharStream.drain_of_next_error hn]

/-- A window of a stream without a failure has none behind its text and hands none out. -/
theorem ending_ofStream {input : CharStream} (h : input.drain.2 = none) :
    (ofStream input).1.ending = none ∧ (ofStream input).2 = none := by
  have hend := ending_ofStream_eq input
  rw [h, ite_self] at hend
  exact Prod.mk.inj hend

end Lexing.Window
