import Lexing.Input.CharStream

/-!
# What is left in a stream

A stream has code points ahead, a source that may still be decoded and perhaps a failure that was
met. To a user all of this is one list of code points and the way it ends, which `CharStream.drain`
gives. Taking a code point removes the head of the list, putting one back adds a head, and looking
ahead leaves list and ending as they are.

Decoding a code point consumes at least one byte. This bounds the list by the count of bytes, so
that the bound in `CharStream.drain` does not cut it off.

## Main results

* `ByteSource.byteCount_lt_of_decode` : decoding consumes bytes.
* `CharStream.drain_of_next_some` : the next code point is the head of the list.
* `CharStream.drain_putBack`, `CharStream.drain_fill`, `CharStream.drain_load`.
* `CharStream.chars_ahead_load` : a loaded stream holds the whole list.
* `CharStream.fst_peekAt` : looking ahead gives an element of the list.
-/

namespace Lexing

namespace ByteSource

/-! ### The count of bytes -/

/-- Reads that are made until one is not interrupted deliver what was to come. -/
theorem byteCount_refill (reads : List Delivery) :
    (refill reads).2.byteCount ≤ byteCount { reads } := by
  fun_induction refill reads with
  | case1 => exact Nat.le_refl _
  | case2 | case3 | case4 | case5 => simp_all [byteCount, Delivery.byteCount]

theorem byteCount_peek (s : ByteSource) : s.peek.2.byteCount ≤ s.byteCount := by
  unfold peek
  split
  · exact Nat.le_refl _
  · rename_i h
    simpa [byteCount, h] using byteCount_refill s.reads

/-- A byte that is looked at is the first of the buffer. -/
theorem buffer_of_peek {s t : ByteSource} {b : UInt8} (h : s.peek = (.item b, t)) :
    t.buffer.head? = some b := by
  have refilled : ∀ reads, refill reads = (.item b, t) → t.buffer.head? = some b := by
    intro reads
    fun_induction refill reads with
    | case3 d bs reads =>
      intro h
      simp only [Prod.mk.injEq, Pulled.item.injEq] at h
      simp [← h.2, h.1]
    | case4 reads ih => exact ih
    | case1 | case2 | case5 => simp
  unfold peek at h
  split at h
  · rename_i hb
    simp only [Prod.mk.injEq, Pulled.item.injEq] at h
    simp [← h.2, hb, h.1]
  · exact refilled _ h

theorem byteCount_consume {s : ByteSource} {b : UInt8} (h : s.buffer.head? = some b) :
    s.consume.byteCount + 1 = s.byteCount := by
  obtain ⟨bs, hb⟩ := List.head?_eq_some_iff.mp h
  simp only [byteCount, consume, hb, List.tail_cons, List.length_cons]
  omega

theorem byteCount_complete (n : Nat) (q : Utf8.Sequence) (s : ByteSource) :
    (complete n q s).2.byteCount ≤ s.byteCount := by
  have hpeek := byteCount_peek s
  fun_induction complete n q s with
  | case1 => exact Nat.le_refl _
  | case2 n q s b t hp hc ih =>
    rw [hp] at hpeek
    have ht := byteCount_consume (buffer_of_peek hp)
    have := ih (byteCount_peek _)
    simp only at hpeek
    omega
  | case3 n q s b t hp | case4 n q s t hp | case5 n q s cause t hp => simpa [hp] using hpeek

/-- Decoding a code point consumes at least one byte. -/
theorem byteCount_lt_of_decode {s t : ByteSource} {c : Char} (h : s.decode = (.item c, t)) :
    t.byteCount < s.byteCount := by
  unfold decode at h
  split at h
  case h_1 b u hp =>
    have hu : u.byteCount ≤ s.byteCount := by simpa [hp] using byteCount_peek s
    have hc := byteCount_consume (buffer_of_peek hp)
    split at h
    · obtain ⟨-, rfl⟩ := Prod.mk.inj h
      omega
    · split at h
      · rename_i q _
        have hle := byteCount_complete q.missing q u.consume
        rw [h] at hle
        simp only at hle
        omega
      · obtain ⟨-, rfl⟩ := Prod.mk.inj h
        omega
  all_goals simp at h

end ByteSource

namespace CharStream

/-! ### One code point at a time -/

/-- Taking a code point takes it from those ahead or decodes it. -/
theorem next_item {s t : CharStream} {c : Char} (h : s.next = (.ok (some c), t)) :
    t.ahead.size + t.source.byteCount < s.ahead.size + s.source.byteCount := by
  unfold next at h
  split at h
  case h_1 d ds _ ha =>
    obtain ⟨-, rfl⟩ := Prod.mk.inj h
    have hsize : 0 < s.ahead.size := by simp [s.ahead.size_eq, ha]
    simp only [Stretch.tail]
    omega
  case h_2 => simp at h
  case h_3 =>
    split at h
    · simp at h
    · split at h
      · rename_i hd
        obtain ⟨-, rfl⟩ := Prod.mk.inj h
        have := ByteSource.byteCount_lt_of_decode hd
        simp only
        omega
      all_goals simp at h

/-- A bound that exceeds what can be left does not matter. -/
theorem collect_congr {m n : Nat} {s : CharStream} (hm : s.ahead.size + s.source.byteCount < m)
    (hn : s.ahead.size + s.source.byteCount < n) : s.collect m = s.collect n := by
  induction m generalizing n s with
  | zero => omega
  | succ m ih =>
    cases n with
    | zero => omega
    | succ n =>
      unfold collect
      split
      case h_1 c t h =>
        have hlt := next_item h
        rw [ih (n := n) (by omega) (by omega)]
      all_goals rfl

/-- The next code point is the first of what is left. -/
theorem drain_of_next_some {s t : CharStream} {c : Char} (h : s.next = (.ok (some c), t)) :
    s.drain = (c :: t.drain.1, t.drain.2) := by
  have hlt := next_item h
  unfold drain
  rw [collect, h]
  simp only
  rw [collect_congr (n := t.ahead.size + t.source.byteCount + 1) (by omega) (by omega)]

theorem drain_of_next_none {s t : CharStream} (h : s.next = (.ok none, t)) :
    s.drain = ([], none) := by
  rw [drain, collect, h]

theorem drain_of_next_error {s t : CharStream} {cause : String}
    (h : s.next = (.error cause, t)) : s.drain = ([], some cause) := by
  rw [drain, collect, h]

theorem IsSpent.drain {s : CharStream} (h : s.IsSpent) : s.drain = ([], none) := by
  obtain ⟨ha, hf, hfin⟩ := h
  have hnext : s.next = (.ok none, s) := by simp [next, ha, hf, hfin]
  exact drain_of_next_none hnext

/-- Putting a code point back adds it in front of what is left. -/
theorem drain_putBack (c : Char) (s : CharStream) :
    (s.putBack c).drain = (c :: s.drain.1, s.drain.2) := by
  have htail : (s.ahead.cons c).tail = s.ahead := Stretch.ext rfl
  have hnext : (s.putBack c).next = (.ok (some c), s) := by simp [next, putBack, htail]
  exact drain_of_next_some hnext

/-! ### Code points ahead -/

/-- What is left begins with the code points ahead. -/
theorem drain_eq_append (s : CharStream) :
    s.drain = (s.ahead.chars ++ { s with ahead := .empty }.drain.1,
      { s with ahead := .empty }.drain.2) := by
  obtain ⟨source, ahead, failure, finished⟩ := s
  obtain ⟨cs, n, hn⟩ := ahead
  simp only
  induction cs generalizing n with
  | nil =>
    have : (⟨[], n, hn⟩ : Stretch) = .empty := Stretch.ext rfl
    rw [this]
    rfl
  | cons c cs ih =>
    have hcons : (⟨c :: cs, n, hn⟩ : Stretch) = (⟨cs, cs.length, rfl⟩ : Stretch).cons c :=
      Stretch.ext rfl
    rw [hcons]
    have h := drain_putBack c ⟨source, ⟨cs, cs.length, rfl⟩, failure, finished⟩
    rw [putBack] at h
    rw [h, ih cs.length rfl]
    rfl

/-- A loaded stream holds all that is left and how it ends. -/
theorem drain_of_isLoaded {s : CharStream} (h : s.isLoaded) :
    s.drain = (s.ahead.chars, s.failure) := by
  obtain ⟨source, ahead, failure, finished⟩ := s
  have hrest : drain ⟨source, .empty, failure, finished⟩ = ([], failure) := by
    cases failure with
    | some cause => exact drain_of_next_error rfl
    | none => exact IsSpent.drain ⟨rfl, rfl, by simpa [isLoaded] using h⟩
  rw [drain_eq_append]
  simp [hrest]

/-! ### Decoding ahead -/

/-- What is left of a source that is not at its end is what it decodes to. -/
theorem drain_of_decode {source t : ByteSource} {c : Char} (h : source.decode = (.item c, t)) :
    (ofSource source).drain = (c :: (ofSource t).drain.1, (ofSource t).drain.2) := by
  have hnext : (ofSource source).next = (.ok (some c), ofSource t) := by
    simp [next, ofSource, h]
  exact drain_of_next_some hnext

/-- Decoding ahead does not change what is left. -/
theorem drain_fetch (n : Nat) (decoded : Array Char) (source : ByteSource) (ahead : Stretch) :
    (fetch n decoded { source, ahead }).drain =
      (ahead.chars ++ (decoded.toList ++ (ofSource source).drain.1),
        (ofSource source).drain.2) := by
  induction n generalizing decoded source with
  | zero =>
    rw [fetch, drain_eq_append]
    simp [ofSource]
  | succ n ih =>
    unfold fetch
    split
    case h_1 c t h => rw [ih, drain_of_decode h]; simp
    case h_2 t h =>
      have hnext : (ofSource source).next = (.ok none, { source := t, finished := true }) := by
        simp_all [next, ofSource]
      rw [drain_of_isLoaded rfl, drain_of_next_none hnext]
      simp
    case h_3 cause t h =>
      have hnext : (ofSource source).next = (.error cause, { source := t, finished := true }) := by
        simp_all [next, ofSource]
      rw [drain_of_isLoaded rfl, drain_of_next_error hnext]
      simp

/-- Decoding ahead either has as many code points as were asked for, or has met the end. -/
theorem size_fetch (n : Nat) (decoded : Array Char) (s : CharStream) :
    (fetch n decoded s).isLoaded ∨
      (fetch n decoded s).ahead.size = s.ahead.size + decoded.size + n := by
  induction n generalizing decoded s with
  | zero => exact .inr (by simp [fetch, Stretch.append])
  | succ n ih =>
    unfold fetch
    split
    case h_1 c t h =>
      refine (ih (decoded.push c) { s with source := t }).imp_right fun hsize => ?_
      simp only [hsize, Array.size_push]
      omega
    all_goals exact .inl (by simp [isLoaded])

/-- A source has been decoded to its end after as many code points as it has bytes. -/
theorem isLoaded_fetch {n : Nat} (decoded : Array Char) {s : CharStream}
    (h : s.source.byteCount < n) : (fetch n decoded s).isLoaded := by
  induction n generalizing decoded s with
  | zero => omega
  | succ n ih =>
    unfold fetch
    split
    case h_1 c t hd =>
      have := ByteSource.byteCount_lt_of_decode hd
      exact ih _ (by simp only; omega)
    all_goals simp [isLoaded]

/-- A stream that is not loaded has met no failure. -/
theorem eq_of_not_isLoaded {s : CharStream} (h : ¬s.isLoaded) :
    s = { source := s.source, ahead := s.ahead } := by
  obtain ⟨source, ahead, failure, finished⟩ := s
  cases failure <;> cases finished <;> simp_all [isLoaded]

theorem drain_fetch_of_not_isLoaded {s : CharStream} (h : ¬s.isLoaded) (n : Nat) :
    (fetch n #[] s).drain = s.drain := by
  rw [eq_of_not_isLoaded h, drain_fetch, drain_eq_append { source := s.source, ahead := s.ahead }]
  rfl

/-- Looking ahead does not change what is left. -/
@[simp]
theorem drain_fill (n : Nat) (s : CharStream) : (s.fill n).drain = s.drain := by
  unfold fill
  split
  · rfl
  · exact drain_fetch_of_not_isLoaded ‹_› _

@[simp]
theorem drain_load (s : CharStream) : s.load.drain = s.drain := by
  unfold load
  split
  · rfl
  · exact drain_fetch_of_not_isLoaded ‹_› _

theorem isLoaded_load (s : CharStream) : s.load.isLoaded := by
  unfold load
  split
  · assumption
  · exact isLoaded_fetch _ (Nat.lt_succ_self _)

/-- A loaded stream has everything that is left ahead. -/
@[simp]
theorem chars_ahead_load (s : CharStream) : s.load.ahead.chars = s.drain.1 := by
  rw [← drain_load, drain_of_isLoaded s.isLoaded_load]

/-- The code point `n` places ahead is the one at that place of what is left. -/
@[simp]
theorem fst_peekAt (n : Nat) (s : CharStream) : (s.peekAt n).1 = s.drain.1[n]? := by
  have hfull : (s.fill (n + 1)).isLoaded ∨ n < (s.fill (n + 1)).ahead.size := by
    unfold fill
    split
    · exact .inl ‹_›
    · refine (size_fetch (n + 1 - s.ahead.size) #[] s).imp_right fun hsize => ?_
      rw [hsize]
      simp only [List.size_toArray, List.length_nil]
      omega
  change (s.fill (n + 1)).ahead.chars[n]? = _
  rw [← drain_fill (n + 1) s]
  rcases hfull with hloaded | hsize
  · rw [drain_of_isLoaded hloaded]
  · rw [drain_eq_append, List.getElem?_append_left (by rwa [← Stretch.size_eq])]

@[simp]
theorem drain_peekAt (n : Nat) (s : CharStream) : (s.peekAt n).2.drain = s.drain :=
  drain_fill ..

end CharStream

end Lexing
