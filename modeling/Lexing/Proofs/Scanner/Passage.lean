import Lexing.Proofs.Input.Delivery
import Lexing.Proofs.Scanner.Assembly
import Lexing.Proofs.Scanner.Emission

/-!
# From one token to the next

Between tokens a scanner is fresh. `Scanner.Passes s w t` says that it moved from `s` to the fresh
scanner `t` over the text `w`, which was discarded or has become a token. Where `Scanner.Consumes`
follows a scanner within one draft, this relation follows it from draft to draft.

## Main definitions

* `Scanner.Passes` : moves over a text to an empty draft.
* `Scanner.finalPosition` : where the upcoming text ends.

## Main results

* `Scanner.passes_whileIn_discard` : discarding a run of a class.
* `Scanner.Consumes.exists_emit` : emitting what was consumed.
* `Scanner.isFresh_ofSource`, `Scanner.upcoming_ofSource`, `Scanner.isClean_ofSource` : the scanner
  at the beginning of a text.
* `Scanner.upcoming_ofString`, `Scanner.isClean_ofString` : the same for strings.
-/

namespace Lexing.Scanner

/-- The scanner moved from `s` over the text `w` to `t`, where its draft is empty. -/
structure Passes (s : Scanner) (w : List Char) (t : Scanner) : Prop where
  upcoming : s.upcoming.chars = w ++ t.upcoming.chars
  position : t.position = s.position.advanceAll w
  previousKind : t.previousKind = s.previousKind
  isFresh : t.IsFresh
  isClean : s.IsClean → t.IsClean

/-- The position where the upcoming text ends. -/
def finalPosition (s : Scanner) : Position :=
  s.position.advanceAll s.upcoming.chars

namespace Passes

variable {s t u : Scanner} {v w : List Char}

theorem refl (h : s.IsFresh) : s.Passes [] s :=
  ⟨rfl, rfl, rfl, h, id⟩

theorem trans (h₁ : s.Passes v t) (h₂ : t.Passes w u) : s.Passes (v ++ w) u where
  upcoming := by rw [h₁.upcoming, h₂.upcoming, List.append_assoc]
  position := by rw [h₂.position, h₁.position, Position.advanceAll_append]
  previousKind := h₂.previousKind.trans h₁.previousKind
  isFresh := h₂.isFresh
  isClean := h₂.isClean ∘ h₁.isClean

/-- The position after all of the upcoming text stays the same. -/
theorem finalPosition_eq (h : s.Passes w t) : t.finalPosition = s.finalPosition := by
  rw [finalPosition, finalPosition, h.position, h.upcoming, Position.advanceAll_append]

theorem length_eq (h : s.Passes w t) :
    t.upcoming.chars.length + w.length = s.upcoming.chars.length := by
  rw [h.upcoming, List.length_append, Nat.add_comm]

/-- Passing over text leaves less of it, whatever was passed before. -/
theorem length_lt (h₁ : s.Passes v t) (h₂ : t.Passes w u) (hw : w ≠ []) :
    u.upcoming.chars.length < s.upcoming.chars.length := by
  have hfirst := h₁.length_eq
  have hsecond := h₂.length_eq
  have hpos := List.length_pos_iff.mpr hw
  omega

/-- Text that was passed has moved the position, if it is shorter than the range of its numbers. -/
theorem position_ne (h : s.Passes w t) (hw : w ≠ []) (hshort : w.length < UInt32.size) :
    t.position ≠ s.position :=
  h.position ▸ s.position.advanceAll_ne hw hshort

end Passes

variable {s t : Scanner} {w : List Char}

/-- Giving everything back passes over nothing. -/
theorem Restores.passes (h : s.Restores t) (hs : s.IsFresh) : s.Passes [] t :=
  ⟨(congrArg View.upcoming h.view).symm, congrArg View.position h.view,
    congrArg View.previousKind h.view, h.isFresh hs, h.isClean⟩

/-! ### Discarding -/

theorem passes_discard {c : Char} (h : s.current? = some c) : s.Passes [c] s.discard := by
  have hdiscard : s.discard = (s.advance c).restart := by rw [discard, h]
  rw [hdiscard]
  exact ⟨(upcoming_of_current? h).trans (congrArg _ (upcoming_advance s c).symm),
    position_advance s c, previousKind_advance s c, ⟨rfl, rfl⟩, fun hclean => hclean.advance c⟩

theorem upcoming_discard {c : Char} (h : s.current? = some c) :
    s.discard.upcoming.chars = s.upcoming.chars.tail := by
  have hup := (passes_discard h).upcoming
  rw [upcoming_of_current? h] at hup
  exact (List.cons.inj hup).2.symm

/-- Discarding a run of a class moves over the longest one. -/
theorem passes_whileIn_discard (k : CharClass) (hs : s.IsFresh) :
    s.Passes (s.upcoming.chars.takeWhile k.contains) (s.whileIn k .discard) := by
  have bounded (bound : List Char) (s : Scanner) (hs : s.IsFresh)
      (hbound : s.upcoming.chars = bound) :
      s.Passes (bound.takeWhile k.contains) (moveWhile k.contains .discard bound s) := by
    induction bound generalizing s with
    | nil => exact .refl hs
    | cons c cs ih =>
      have hc : s.current? = some c := by rw [current?_eq, hbound, List.head?_cons]
      rw [moveWhile, hc, Option.any_some]
      split
      · rename_i hk
        have hfirst := passes_discard hc
        have hup : s.discard.upcoming.chars = cs := by
          rw [upcoming_discard hc, hbound, List.tail_cons]
        rw [List.takeWhile_cons_of_pos hk]
        exact hfirst.trans (ih s.discard hfirst.isFresh hup)
      · rename_i hk
        rw [List.takeWhile_cons_of_neg hk]
        exact .refl hs
  exact bounded _ s hs rfl

/-! ### Emitting -/

/-- A draft that has consumed text becomes a token with this text as literal, and the scanner passes
over the text. -/
theorem Consumes.exists_emit (h : s.Consumes w t) (hs : s.IsFresh) (hw : w ≠ []) :
    ∃ u, t.emit = .ok (t.checkValue.assembled, u) ∧ s.Passes w u ∧ u.upcoming = t.upcoming ∧
      t.checkValue.assembled.literal = String.ofList w ∧
        t.checkValue.assembled.position = s.position := by
  have hliteral : t.draft.literal = w := by simpa [hs.1] using h.literal
  have hemit := emit_of_literal_ne_nil (hliteral ▸ hw)
  obtain ⟨hwindow, hposition, hprevious, -, hfresh⟩ := frame_emit hemit
  have hup : Scanner.upcoming _ = t.upcoming := congrArg Window.text hwindow
  refine ⟨_, hemit, ⟨?_, ?_, ?_, hfresh, fun hclean => (h.isClean hclean).emit hemit⟩, hup, ?_, ?_⟩
  · rw [h.upcoming, hup]
  · rw [hposition, h.position]
  · rw [hprevious, h.previousKind]
  · rcases t.checkValue_eq with hc | ⟨problem, hc⟩ <;> rw [hc] <;>
      exact congrArg String.ofList hliteral
  · rcases t.checkValue_eq with hc | ⟨problem, hc⟩ <;> rw [hc] <;> exact h.start.trans hs.2

/-! ### The beginning of a text -/

theorem isFresh_ofSource (name : String) (source : ByteSource) :
    (ofSource name source).IsFresh := by
  simp [ofSource, ofStream, IsFresh]

theorem position_ofSource (name : String) (source : ByteSource) :
    (ofSource name source).position = .start name := by
  simp [ofSource, ofStream]

theorem position_ofStream (name : String) (input : CharStream) :
    (ofStream name input).position = .start name := by
  simp [ofStream]

/-- The upcoming text of a stream is what draining it gives. -/
theorem upcoming_ofStream (name : String) (input : CharStream) :
    (ofStream name input).upcoming.chars = input.drain.1 := by
  simp [ofStream, upcoming]

theorem previousKind_ofStream (name : String) (input : CharStream) :
    (ofStream name input).previousKind = "" := by
  simp [ofStream]

theorem previousKind_ofSource (name : String) (source : ByteSource) :
    (ofSource name source).previousKind = "" :=
  previousKind_ofStream name _

/-- The upcoming text of a source is what decoding it gives. -/
theorem upcoming_ofSource (name : String) (source : ByteSource) :
    (ofSource name source).upcoming.chars = source.text := by
  simp [ofSource, ofStream, upcoming, ByteSource.text]

/-- A source without failures gives a clean scanner. -/
theorem isClean_ofSource (name : String) {source : ByteSource} (h : source.failure? = none) :
    (ofSource name source).IsClean := by
  have hdrain : (CharStream.ofSource source).load.drain.2 = none := by
    rw [CharStream.drain_load]
    exact h
  obtain ⟨hending, hcause⟩ := Window.ending_ofStream hdrain
  unfold ofSource ofStream
  dsimp only
  rw [hcause]
  exact ⟨rfl, hending⟩

/-- The upcoming text of a string is the string. -/
theorem upcoming_ofString (name text : String) :
    (ofString name text).upcoming.chars = text.toList := by
  have hdrain := (ByteSource.decodesTo_ofString text).drain_eq
  exact (upcoming_ofSource name _).trans (congrArg Prod.fst hdrain)

theorem isClean_ofString (name text : String) : (ofString name text).IsClean := by
  have hdrain := (ByteSource.decodesTo_ofString text).drain_eq
  exact isClean_ofSource name (congrArg Prod.snd hdrain)

end Lexing.Scanner
