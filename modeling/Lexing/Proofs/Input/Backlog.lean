import Lexing.Proofs.Input.Stream

/-!
# A stream is a list with an ending

A byte source decodes to a list of code points, after which the input ends or fails. A stream over
the source answers every sequence of requests as this list does: taking removes the head, putting
back adds heads, and looking shows a part of the list. A failure is handed out when the list is
empty, and only once.

The stream itself holds the list in three places, which are the code points ahead, the bytes that
were not decoded and a failure that was met while looking. `CharStream.backlog` forgets the places.

## Main definitions

* `ByteSource.DecodesTo` : the code points of a source and how it ends.
* `Request`, `Answer`, `Request.run` : sequences of requests and what they are answered.
* `Backlog.perform`, `CharStream.perform` : the answers of a list and of a stream.

## Main results

* `CharStream.backlog_perform` : one request.
* `CharStream.backlog_run` : any sequence of requests.
* `Backlog.length_run` : the code points that were put in are taken out or still there.
-/

namespace Lexing

/-! ### What a source decodes to -/

/-- Decoding the source again and again gives the code points of a list, and then the end of the
input or a failure with the given cause. -/
inductive ByteSource.DecodesTo : ByteSource → List Char → Option String → Prop
  | done {s t : ByteSource} (h : s.decode = (.done, t)) : DecodesTo s [] none
  | failed {s t : ByteSource} {cause : String} (h : s.decode = (.failed cause, t)) :
      DecodesTo s [] (some cause)
  | item {s t : ByteSource} {c : Char} {cs : List Char} {ending : Option String}
      (h : s.decode = (.item c, t)) (ht : DecodesTo t cs ending) : DecodesTo s (c :: cs) ending

namespace ByteSource

/-- Every source decodes to a list, because each code point takes at least one byte. -/
theorem exists_decodesTo (s : ByteSource) : ∃ cs ending, s.DecodesTo cs ending := by
  generalize hn : s.byteCount = n
  induction n using Nat.strongRecOn generalizing s with
  | ind n ih =>
    rcases hd : s.decode with ⟨c | _ | cause, t⟩
    · have hlt := byteCount_lt_of_decode hd
      obtain ⟨cs, ending, ht⟩ := ih t.byteCount (hn ▸ hlt) t rfl
      exact ⟨c :: cs, ending, .item hd ht⟩
    · exact ⟨[], none, .done hd⟩
    · exact ⟨[], some cause, .failed hd⟩

/-- What a source decodes to is what a stream over it has to hand out. -/
theorem DecodesTo.drain_eq {s : ByteSource} {cs : List Char} {ending : Option String}
    (h : s.DecodesTo cs ending) : (CharStream.ofSource s).drain = (cs, ending) := by
  induction h with
  | @done s t h =>
    have hnext : (CharStream.ofSource s).next = (.ok none, { source := t, finished := true }) := by
      simp [CharStream.next, CharStream.ofSource, h]
    exact CharStream.drain_of_next_none hnext
  | @failed s t cause h =>
    have hnext : (CharStream.ofSource s).next =
        (.error cause, { source := t, finished := true }) := by
      simp [CharStream.next, CharStream.ofSource, h]
    exact CharStream.drain_of_next_error hnext
  | item h _ ih => rw [CharStream.drain_of_decode h, ih]

end ByteSource

/-! ### Requests -/

/-- A request to a stream of code points. -/
inductive Request where
  /-- Takes a code point. -/
  | next
  /-- Looks at the code point some places ahead. -/
  | peekAt (n : Nat)
  /-- Looks at a number of code points. -/
  | peekUpTo (n : Nat)
  /-- Puts a code point back. -/
  | putBack (c : Char)
  /-- Puts code points back, which are then taken in their order. -/
  | putBackAll (cs : List Char)
  deriving DecidableEq

/-- The answer to a request. -/
inductive Answer where
  /-- What was taken: a code point, nothing at the end, or a failure. -/
  | taken (result : Except String (Option Char))
  /-- The code point that was looked at. -/
  | seen (c : Option Char)
  /-- The code points that were looked at. -/
  | shown (cs : List Char)
  /-- Nothing. -/
  | silent

namespace Request

/-- The request only looks at the stream. -/
def isLook : Request → Bool
  | peekAt _ | peekUpTo _ => true
  | _ => false

/-- The code points that the request puts back. -/
def returned : Request → List Char
  | putBack c => [c]
  | putBackAll cs => cs
  | _ => []

/-- The answers to requests that are made one after another, and the state after them. -/
def run {σ : Type} (perform : Request → σ → Answer × σ) : List Request → σ → List Answer × σ
  | [], s => ([], s)
  | r :: rs, s =>
    ((perform r s).1 :: (run perform rs (perform r s).2).1, (run perform rs (perform r s).2).2)

end Request

namespace Answer

/-- The answer is to a request that only looks at the stream. -/
def isLook : Answer → Bool
  | seen _ | shown _ => true
  | _ => false

/-- A code point was taken. -/
def isChar : Answer → Bool
  | taken (.ok (some _)) => true
  | _ => false

end Answer

/-! ### Lists -/

/-- A list of code points to be taken, and a failure behind them that was not handed out. -/
structure Backlog where
  /-- The code points. -/
  chars : List Char
  /-- The cause of the failure. -/
  failure : Option String

namespace Backlog

/-- What a list answers to a request, and the list after it. -/
def perform : Request → Backlog → Answer × Backlog
  | .next, ⟨c :: cs, failure⟩ => (.taken (.ok (some c)), ⟨cs, failure⟩)
  | .next, ⟨[], some cause⟩ => (.taken (.error cause), ⟨[], none⟩)
  | .next, ⟨[], none⟩ => (.taken (.ok none), ⟨[], none⟩)
  | .peekAt n, b => (.seen b.chars[n]?, b)
  | .peekUpTo n, b => (.shown (b.chars.take n), b)
  | .putBack c, b => (.silent, { b with chars := c :: b.chars })
  | .putBackAll cs, b => (.silent, { b with chars := cs ++ b.chars })

variable {b : Backlog} {r : Request}

theorem isLook_perform (r : Request) (b : Backlog) : (b.perform r).1.isLook = r.isLook := by
  rcases r with _ | _ | _ | _ | _
  · rcases b with ⟨_ | ⟨c, cs⟩, _ | cause⟩ <;> rfl
  all_goals rfl

/-- Looking leaves the list as it is. -/
theorem perform_of_isLook (h : r.isLook = true) : (b.perform r).2 = b := by
  rcases r with _ | n | n | c | cs
  · exact absurd h Bool.false_ne_true
  · rfl
  · rfl
  · exact absurd h Bool.false_ne_true
  · exact absurd h Bool.false_ne_true

/-- Leaving out the requests that only look leaves out their answers and changes no other. -/
theorem run_filter (requests : List Request) (b : Backlog) :
    (Request.run perform (requests.filter (!·.isLook)) b).1 =
      (Request.run perform requests b).1.filter (!·.isLook) := by
  induction requests generalizing b with
  | nil => rfl
  | cons r rs ih =>
    by_cases hr : r.isLook = true
    · have hb := perform_of_isLook (b := b) hr
      simp [Request.run, isLook_perform, hr, hb, ih]
    · simp [Request.run, isLook_perform, hr, ih]

/-- A request takes out what it takes and puts in what it puts back. -/
theorem length_perform (r : Request) (b : Backlog) :
    (b.perform r).2.chars.length + (if (b.perform r).1.isChar then 1 else 0) =
      b.chars.length + r.returned.length := by
  rcases r with _ | _ | _ | c | cs
  · rcases b with ⟨_ | ⟨c, cs⟩, _ | cause⟩ <;> rfl
  · rfl
  · rfl
  · rfl
  · simp [perform, Answer.isChar, Request.returned, Nat.add_comm]

/-- What was on the list at first or was put back has been taken or is still on the list. -/
theorem length_run (requests : List Request) (b : Backlog) :
    (Request.run perform requests b).2.chars.length +
        (Request.run perform requests b).1.countP Answer.isChar =
      b.chars.length + (requests.flatMap Request.returned).length := by
  induction requests generalizing b with
  | nil => rfl
  | cons r rs ih =>
    have hr := length_perform r b
    have hrs := ih (b.perform r).2
    simp only [Request.run, List.countP_cons, List.flatMap_cons, List.length_append]
    omega

/-- A failure is handed out when the list is empty. -/
theorem chars_eq_nil_of_failure {cause : String}
    (h : (b.perform .next).1 = .taken (.error cause)) : b.chars = [] ∧ b.failure = some cause := by
  rcases b with ⟨_ | ⟨c, cs⟩, _ | cause'⟩
  all_goals simp_all [perform]

/-- The failure of a list is the one that it had at first. -/
theorem failure_run {requests : List Request} {cause : String}
    (h : (Request.run perform requests b).2.failure = some cause) : b.failure = some cause := by
  have step (r : Request) (b : Backlog) (hr : (b.perform r).2.failure = some cause) :
      b.failure = some cause := by
    rcases r with _ | _ | _ | _ | _
    · rcases b with ⟨_ | ⟨c, cs⟩, _ | cause'⟩ <;> simp_all [perform]
    all_goals exact hr
  induction requests generalizing b with
  | nil => exact h
  | cons r rs ih => exact step r b (ih h)

end Backlog

/-! ### Streams -/

namespace CharStream

/-- What a stream answers to a request, and the stream after it. -/
def perform : Request → CharStream → Answer × CharStream
  | .next, s => (.taken s.next.1, s.next.2)
  | .peekAt n, s => (.seen (s.peekAt n).1, (s.peekAt n).2)
  | .peekUpTo n, s => (.shown (s.peekUpTo n).1, (s.peekUpTo n).2)
  | .putBack c, s => (.silent, s.putBack c)
  | .putBackAll cs, s => (.silent, s.putBackAll cs)

/-- The list of all that a stream has still to hand out, and the failure behind it. -/
def backlog (s : CharStream) : Backlog :=
  ⟨s.drain.1, s.drain.2⟩

/-- The next code points are the first ones of what is left. -/
theorem fst_peekUpTo (n : Nat) (s : CharStream) : (s.peekUpTo n).1 = s.drain.1.take n := by
  change (s.fill n).ahead.chars.take n = _
  have hfull : (s.fill n).isLoaded ∨ n ≤ (s.fill n).ahead.size := by
    by_cases hl : s.isLoaded = true
    · rw [fill, if_pos hl]
      exact .inl hl
    · rw [fill, if_neg hl]
      refine (size_fetch (n - s.ahead.size) #[] s).imp_right fun hsize => ?_
      rw [hsize]
      simp only [List.size_toArray, List.length_nil]
      omega
  rw [← drain_fill n s]
  rcases hfull with hloaded | hsize
  · rw [drain_of_isLoaded hloaded]
  · rw [drain_eq_append, List.take_append_of_le_length (by rwa [← Stretch.size_eq])]

theorem backlog_putBackAll (cs : List Char) (s : CharStream) :
    (s.putBackAll cs).backlog = { s.backlog with chars := cs ++ s.backlog.chars } := by
  induction cs with
  | nil => rfl
  | cons c cs ih =>
    have hcons : (s.putBackAll (c :: cs)).drain = _ := drain_putBack c (s.putBackAll cs)
    obtain ⟨hchars, hfailure⟩ := Backlog.mk.inj ih
    rw [backlog, hcons]
    simp only [hchars, hfailure, List.cons_append]

/-- One request: a stream answers as its list does, and becomes a stream with the list after it. -/
theorem backlog_perform (r : Request) (s : CharStream) :
    (s.perform r).1 = (s.backlog.perform r).1 ∧
      (s.perform r).2.backlog = (s.backlog.perform r).2 := by
  rcases r with _ | n | n | c | cs
  · change Answer.taken s.next.1 = _ ∧ s.next.2.backlog = _
    rcases hn : s.next with ⟨cause | _ | c, t⟩
    · have hspent := (isSpent_of_next hn (by simp)).drain
      simp [backlog, drain_of_next_error hn, hspent, Backlog.perform]
    · have hspent := (isSpent_of_next hn (by simp)).drain
      simp [backlog, drain_of_next_none hn, hspent, Backlog.perform]
    · simp [backlog, drain_of_next_some hn, Backlog.perform]
  · simp [perform, Backlog.perform, backlog]
  · have hdrain : (s.peekUpTo n).2.drain = s.drain := drain_fill n s
    simp [perform, Backlog.perform, backlog, fst_peekUpTo, hdrain]
  · simp [perform, Backlog.perform, backlog, drain_putBack]
  · exact ⟨rfl, backlog_putBackAll cs s⟩

/-- Any sequence of requests: a stream answers as its list does. -/
theorem backlog_run (requests : List Request) (s : CharStream) :
    (Request.run perform requests s).1 = (Request.run Backlog.perform requests s.backlog).1 ∧
      (Request.run perform requests s).2.backlog =
        (Request.run Backlog.perform requests s.backlog).2 := by
  induction requests generalizing s with
  | nil => exact ⟨rfl, rfl⟩
  | cons r rs ih =>
    obtain ⟨hanswer, hafter⟩ := backlog_perform r s
    obtain ⟨hanswers, hend⟩ := ih (s.perform r).2
    rw [hafter] at hanswers hend
    exact ⟨by simp only [Request.run, hanswer, hanswers], hend⟩

end CharStream

end Lexing
