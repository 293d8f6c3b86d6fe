import Lexing.Input.ByteSource
import Lexing.Text.Stretch

/-!
# Streams of code points

A stream hands out the code points of a byte source one after another. Code points may be looked at
before they are taken, and may be put back. The source is decoded no further than a request needs.

A failure of the source is handed out once, after every code point that was decoded before it or
put back, and the stream is at its end from then on. The end of the input is final too.

## Main definitions

* `CharStream.next` : takes a code point.
* `CharStream.peekAt`, `CharStream.peekUpTo` : looks ahead.
* `CharStream.putBack`, `CharStream.putBackAll` : puts code points back.
* `CharStream.IsSpent` : nothing is left.
* `CharStream.load` : decodes everything that is left.
* `CharStream.drain` : everything that is left and how it ends.
-/

namespace Lexing

/-- A stream of code points over a byte source. -/
structure CharStream where
  /-- The bytes that were not decoded. -/
  source : ByteSource
  /-- Code points that were decoded or put back, and not taken. -/
  ahead : Stretch := .empty
  /-- A failure that was met while looking ahead and not handed out. -/
  failure : Option String := none
  /-- Whether the source is at its end. -/
  finished : Bool := false
  deriving DecidableEq, Repr

namespace CharStream

/-- The stream of a byte source. -/
def ofSource (source : ByteSource) : CharStream :=
  { source }

/-- Takes the next code point; there is none at the end. A failure is given once. -/
def next (s : CharStream) : Except String (Option Char) × CharStream :=
  match s.ahead.chars, s.failure with
  | c :: _, _ => (.ok (some c), { s with ahead := s.ahead.tail })
  | [], some cause => (.error cause, { s with failure := none, finished := true })
  | [], none =>
    if s.finished then (.ok none, s)
    else match s.source.decode with
      | (.item c, source) => (.ok (some c), { s with source })
      | (.done, source) => (.ok none, { s with source, finished := true })
      | (.failed cause, source) => (.error cause, { s with source, finished := true })

/-! ### Looking ahead -/

/-- Decodes up to `n` more code points, which follow `decoded`. -/
def fetch : Nat → Array Char → CharStream → CharStream
  | 0, decoded, s => { s with ahead := s.ahead.append decoded.toList }
  | n + 1, decoded, s =>
    match s.source.decode with
    | (.item c, source) => fetch n (decoded.push c) { s with source }
    | (.done, source) =>
      { s with source, ahead := s.ahead.append decoded.toList, finished := true }
    | (.failed cause, source) =>
      { s with source, ahead := s.ahead.append decoded.toList, failure := some cause }

/-- Whether nothing more is to be decoded, because the source has ended or failed. -/
def isLoaded (s : CharStream) : Bool :=
  s.finished || s.failure.isSome

/-- Decodes until `n` code points are ahead, if the source has as many. -/
def fill (n : Nat) (s : CharStream) : CharStream :=
  if s.isLoaded then s else fetch (n - s.ahead.size) #[] s

/-- The code point `n` places ahead, if the source has as many. -/
def peekAt (n : Nat) (s : CharStream) : Option Char × CharStream :=
  let s := s.fill (n + 1)
  (s.ahead.chars[n]?, s)

/-- The next `n` code points, or fewer if the source ends before. -/
def peekUpTo (n : Nat) (s : CharStream) : List Char × CharStream :=
  let s := s.fill n
  (s.ahead.chars.take n, s)

/-- Decodes everything that is left. Each code point takes at least one byte, so the count of bytes
bounds the count of code points. -/
def load (s : CharStream) : CharStream :=
  if s.isLoaded then s else fetch (s.source.byteCount + 1) #[] s

/-! ### Putting back -/

/-- Puts a code point in front of the stream. -/
def putBack (c : Char) (s : CharStream) : CharStream :=
  { s with ahead := s.ahead.cons c }

/-- Puts code points in front of the stream; they are taken in their order. -/
def putBackAll (cs : List Char) (s : CharStream) : CharStream :=
  { s with ahead := cs.foldr (fun c u => u.cons c) s.ahead }

/-! ### The end of a stream -/

/-- Nothing is left, and a failure of the source was handed out. -/
def IsSpent (s : CharStream) : Prop :=
  s.ahead = .empty ∧ s.failure = none ∧ s.finished = true

/-- A stream that does not hand out a code point has nothing left. -/
theorem isSpent_of_next {s t : CharStream} {r : Except String (Option Char)}
    (h : s.next = (r, t)) (hr : ∀ c, r ≠ .ok (some c)) : t.IsSpent := by
  unfold next at h
  split at h
  · simp only [Prod.mk.injEq] at h
    exact absurd h.1.symm (hr _)
  · rename_i ha _
    obtain ⟨-, rfl⟩ := Prod.mk.inj h
    exact ⟨Stretch.ext ha, rfl, rfl⟩
  · rename_i ha hf
    split at h
    · rename_i hfin
      obtain ⟨-, rfl⟩ := Prod.mk.inj h
      exact ⟨Stretch.ext ha, hf, hfin⟩
    · split at h
      · exact absurd (Prod.mk.inj h).1.symm (hr _)
      all_goals
        obtain ⟨-, rfl⟩ := Prod.mk.inj h
        exact ⟨Stretch.ext ha, hf, rfl⟩

/-- Looking ahead in a stream that has nothing left finds nothing more. -/
theorem IsSpent.peekAt {s : CharStream} (h : s.IsSpent) (n : Nat) : (s.peekAt n).2.IsSpent := by
  have hfill : s.fill (n + 1) = s := by simp [fill, isLoaded, h.2.2]
  change (s.fill (n + 1)).IsSpent
  rwa [hfill]

/-! ### Taking everything -/

/-- Takes up to `fuel` code points. The result holds the cause if the stream ends in a failure. -/
def collect : Nat → CharStream → List Char × Option String
  | 0, _ => ([], none)
  | fuel + 1, s =>
    match s.next with
    | (.ok (some c), t) => (c :: (collect fuel t).1, (collect fuel t).2)
    | (.ok none, _) => ([], none)
    | (.error cause, _) => ([], some cause)

/-- Everything that is left in the stream, and the cause if it ends in a failure. -/
def drain (s : CharStream) : List Char × Option String :=
  s.collect (s.ahead.size + s.source.byteCount + 1)

end CharStream

namespace ByteSource

/-- The code points of a byte source, up to its end or its first failure. -/
def text (source : ByteSource) : List Char :=
  (CharStream.ofSource source).drain.1

/-- The cause of the failure that a byte source ends in, if it does. -/
def failure? (source : ByteSource) : Option String :=
  (CharStream.ofSource source).drain.2

end ByteSource

end Lexing
