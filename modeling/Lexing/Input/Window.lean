import Lexing.Input.CharStream

/-!
# Windows

A window shows the current code point of a text and the one after it, and holds the stream of all
others. Both were read from the stream. If the second is missing, the stream was read up to its end
and has nothing left, and if the first is missing, so is the second.

Reading may meet a failure of the byte source, which is then handed out together with the window.

## Main definitions

* `Window` : two code points and the stream of the others.
* `Window.ofStream`, `Window.shift` : read from the stream.
* `Window.pushBack` : puts a code point in front of the current one.
* `Window.peekAt` : looks ahead.
* `Window.text` : everything from the current code point on.
-/

namespace Lexing

/-- The current code point, the one after it and the stream of the others. -/
structure Window where
  /-- The current code point. -/
  current? : Option Char
  /-- The code point after the current one. -/
  following? : Option Char
  /-- What comes after these two. -/
  input : CharStream
  following?_eq_none : current? = none → following? = none
  isSpent_input : following? = none → input.IsSpent
  deriving DecidableEq

namespace Window

/-- The window with a given current code point whose next one is read from a stream, and the cause
if the stream fails. -/
def reading (c : Char) (input : CharStream) : Window × Option String :=
  match h : input.next with
  | (.ok (some d), input) => (⟨some c, some d, input, nofun, nofun⟩, none)
  | (.ok none, input) =>
    (⟨some c, none, input, nofun, fun _ => CharStream.isSpent_of_next h nofun⟩, none)
  | (.error cause, input) =>
    (⟨some c, none, input, nofun, fun _ => CharStream.isSpent_of_next h nofun⟩, some cause)

/-- The window at the beginning of a stream, and the cause if the stream fails. -/
def ofStream (input : CharStream) : Window × Option String :=
  match h : input.next with
  | (.ok (some c), input) => reading c input
  | (.ok none, input) =>
    (⟨none, none, input, fun _ => rfl, fun _ => CharStream.isSpent_of_next h nofun⟩, none)
  | (.error cause, input) =>
    (⟨none, none, input, fun _ => rfl, fun _ => CharStream.isSpent_of_next h nofun⟩, some cause)

/-- Moves past the current code point. The result holds the cause if the stream fails. -/
def shift (w : Window) : Window × Option String :=
  match h : w.following? with
  | some c => reading c w.input
  | none => (⟨none, none, w.input, fun _ => rfl, fun _ => w.isSpent_input h⟩, none)

/-- Puts a code point in front of the current one. -/
def pushBack (c : Char) (w : Window) : Window :=
  match h : w.following? with
  | some d => ⟨some c, w.current?, w.input.putBack d, nofun, fun hc => by
      simp [w.following?_eq_none hc] at h⟩
  | none => ⟨some c, w.current?, w.input, nofun, fun _ => w.isSpent_input h⟩

/-- The code point `n` places after the current one. Those after the second are looked up in the
stream, which may have to be decoded for it. -/
def peekAt (w : Window) : Nat → Option Char × Window
  | 0 => (w.current?, w)
  | 1 => (w.following?, w)
  | n + 2 =>
    ((w.input.peekAt n).1,
      ⟨w.current?, w.following?, (w.input.peekAt n).2, w.following?_eq_none,
        fun h => (w.isSpent_input h).peekAt n⟩)

/-- Everything from the current code point on. -/
def text (w : Window) : Stretch :=
  (w.input.load.ahead.cons? w.following?).cons? w.current?

end Window

end Lexing
