import Lexing.Proofs.Text.Utf8

/-!
# Well-formed bytes are encoded text

Bytes that are read without a malformed run are the bytes of the code points that were read, one
after another. A sequence that is completed to a code point stood at that code point before each of
its bytes, so that the lead byte and the continuation bytes are those of the code point.

## Main results

* `Utf8.Sequence.StandsAt.of_push` : a continuation byte is that of the code point.
* `Utf8.exists_of_marksFrom_some` : the bytes that complete a sequence.
* `Utf8.decode?_eq_some_iff` : strict decoding inverts encoding, and accepts nothing else.
-/

namespace Lexing.Utf8

variable {b : UInt8} {bytes : List UInt8} {c : Char} {text : List Char} {q q' : Sequence}

/-! ### Continuation bytes -/

/-- A sequence that stands at a code point behind a continuation byte stood there before, and the
byte has the bits of the code point that come next. -/
theorem Sequence.StandsAt.of_push {m : Nat} (h : (q.push b).StandsAt c) (hm : q.missing = m + 1)
    (hb : isContinuation b = true) :
    q.StandsAt c ∧ b = .ofNat (c.toNat >>> (6 * m) % 64 + 0x80) := by
  have hbyte : 0x80 ≤ b.toNat ∧ b.toNat ≤ 0xBF := by
    simpa [isContinuation, UInt8.le_iff_toNat_le] using hb
  have hcode : q.code * 64 + (b.toNat - 0x80) = c.toNat >>> (6 * m) := by
    have hcode := h.code
    rwa [Sequence.push, hm, Nat.add_sub_cancel] at hcode
  refine ⟨⟨?_, h.least⟩, UInt8.toNat_inj.mp ?_⟩
  · rw [hm, Nat.mul_succ, Nat.shiftRight_add, ← hcode, Nat.shiftRight_eq_div_pow]
    omega
  · rw [UInt8.toNat_ofNat']
    omega

/-- A sequence that is completed stands at its code point. -/
theorem Sequence.standsAt_of_char? (hm : q.missing = 0) (h : q.char? = some c) : q.StandsAt c := by
  rw [char?] at h
  split at h
  · rename_i hleast
    have hcode := toNat_of_scalar? h
    exact ⟨by rw [hm, hcode]; rfl, hcode ▸ hleast⟩
  · cases h

/-- Where no malformed run is read, there is a byte that goes on with the sequence being read. -/
theorem exists_cons_of_marksFrom (h : marksFrom (some q) bytes = text.map some) :
    ∃ b bytes', bytes = b :: bytes' ∧ isContinuation b = true ∧
      if (q.push b).missing = 0 then ∃ c text', text = c :: text' ∧ (q.push b).char? = some c ∧
        marksFrom none bytes' = text'.map some
      else marksFrom (some (q.push b)) bytes' = text.map some := by
  -- An unfinished run gives a mark that is no code point.
  have hrun {marks : List (Option Char)} (h : none :: marks = text.map some) : False := by
    obtain ⟨c, text', -, hc, -⟩ := List.map_eq_cons_iff.mp h.symm
    cases hc
  cases bytes with
  | nil => exact (hrun h).elim
  | cons b bytes =>
    rw [marksFrom, step] at h
    split at h
    · rename_i hgoes
      refine ⟨b, bytes, rfl, (Bool.and_eq_true_iff.mp hgoes).1, ?_⟩
      split at h
      · rename_i hzero
        rw [if_pos hzero]
        obtain ⟨c, text', rfl, hc, hrest⟩ := List.map_eq_cons_iff.mp h.symm
        exact ⟨c, text', rfl, hc.symm, hrest.symm⟩
      · rename_i hmore
        rwa [if_neg hmore]
    · exact (hrun h).elim

/-- Bytes that complete a sequence without a malformed run begin with the continuation bytes of the
code point at which the sequence stands. -/
theorem exists_of_marksFrom_some {m : Nat} (hm : q.missing = m + 1)
    (h : marksFrom (some q) bytes = text.map some) :
    ∃ c text' bytes', text = c :: text' ∧ q.StandsAt c ∧
      bytes = continuation (m + 1) c.toNat ++ bytes' ∧ marksFrom none bytes' = text'.map some := by
  induction m generalizing q bytes with
  | zero =>
    obtain ⟨b, bytes, rfl, hb, hends⟩ := exists_cons_of_marksFrom h
    have hlast : (q.push b).missing = 0 := by rw [Sequence.push, hm]
    rw [if_pos hlast] at hends
    obtain ⟨c, text', rfl, hc, hrest⟩ := hends
    obtain ⟨hq, rfl⟩ := (Sequence.standsAt_of_char? hlast hc).of_push hm hb
    exact ⟨c, text', bytes, rfl, hq, rfl, hrest⟩
  | succ m ih =>
    obtain ⟨b, bytes, rfl, hb, hends⟩ := exists_cons_of_marksFrom h
    have hmore : (q.push b).missing = m + 1 := by rw [Sequence.push, hm, Nat.add_sub_cancel]
    rw [if_neg (by omega)] at hends
    obtain ⟨c, text', bytes', rfl, hpush, rfl, hrest⟩ := ih hmore hends
    obtain ⟨hq, rfl⟩ := hpush.of_push hm hb
    exact ⟨c, text', bytes', rfl, hq, rfl, hrest⟩

/-! ### Lead bytes -/

/-- A lead byte has the first bits of its code points, which are as large as its sequences need. -/
theorem Sequence.ofLead?_cases (h : ofLead? b = some q) :
    (q.missing = 1 ∧ q.least = 0x80 ∧ q.code < 32 ∧ b.toNat = q.code + 0xC0) ∨
    (q.missing = 2 ∧ q.least = 0x800 ∧ q.code < 16 ∧ b.toNat = q.code + 0xE0) ∨
    (q.missing = 3 ∧ q.least = 0x10000 ∧ q.code < 8 ∧ b.toNat = q.code + 0xF0) := by
  simp only [ofLead?, UInt8.le_iff_toNat_le, UInt8.reduceToNat] at h
  split at h
  · obtain rfl := Option.some.inj h
    exact .inl ⟨rfl, rfl, by dsimp only; omega, by dsimp only; omega⟩
  · split at h
    · obtain rfl := Option.some.inj h
      exact .inr (.inl ⟨rfl, rfl, by dsimp only; omega, by dsimp only; omega⟩)
    · split at h
      · obtain rfl := Option.some.inj h
        exact .inr (.inr ⟨rfl, rfl, by dsimp only; omega, by dsimp only; omega⟩)
      · cases h

/-- Only one lead byte begins the sequence of a code point. -/
theorem Sequence.eq_of_ofLead? {b' : UInt8} (hq : ofLead? b = some q) (hq' : ofLead? b' = some q')
    (h : q.StandsAt c) (h' : q'.StandsAt c) : b = b' ∧ q.missing = q'.missing := by
  have hcode := h.code
  have hcode' := h'.code
  have hleast := h.least
  have hleast' := h'.least
  rw [Nat.shiftRight_eq_div_pow] at hcode hcode'
  have hbytes : b.toNat = b'.toNat ∧ q.missing = q'.missing := by
    rcases ofLead?_cases hq with ⟨hm, hl, hlt, hb⟩ | ⟨hm, hl, hlt, hb⟩ | ⟨hm, hl, hlt, hb⟩ <;>
    rcases ofLead?_cases hq' with ⟨hm', hl', hlt', hb'⟩ | ⟨hm', hl', hlt', hb'⟩ |
      ⟨hm', hl', hlt', hb'⟩ <;>
    rw [hm] at hcode <;> rw [hm'] at hcode' <;> omega
  exact ⟨UInt8.toNat_inj.mp hbytes.1, hbytes.2⟩

/-- A lead byte and the continuation bytes of a code point are its encoding. -/
theorem encodeChar_of_standsAt {m : Nat} (hlead : Sequence.ofLead? b = some q) (h : q.StandsAt c)
    (hm : q.missing = m + 1) : String.utf8EncodeChar c = b :: continuation (m + 1) c.toNat := by
  rcases encodeChar_cases c with ⟨b', hascii, rfl, -⟩ | ⟨b', q', m', h', hlead', hm', hbytes⟩
  · have hleast := h.least
    have hnat : (Char.ofUInt8 b').toNat = b'.toNat := rfl
    have hlt : b'.toNat < 0x80 := UInt8.lt_iff_toNat_lt.mp hascii
    rw [hnat] at hleast
    rcases Sequence.ofLead?_cases hlead with ⟨-, hl, -⟩ | ⟨-, hl, -⟩ | ⟨-, hl, -⟩ <;> omega
  · obtain ⟨rfl, hmissing⟩ := Sequence.eq_of_ofLead? hlead hlead' h h'
    obtain rfl : m = m' := by omega
    exact hbytes

/-- A byte that is a code point of its own is its encoding. -/
theorem encodeChar_ofUInt8 (hb : b < 0x80) : String.utf8EncodeChar (Char.ofUInt8 b) = [b] := by
  have hnat : (Char.ofUInt8 b).toNat = b.toNat := rfl
  rcases encodeChar_cases (Char.ofUInt8 b) with ⟨b', -, heq, hbytes⟩ | ⟨b', q, m, h, hlead, -⟩
  · have hnat' : (Char.ofUInt8 b').toNat = b'.toNat := rfl
    rw [hbytes, UInt8.toNat_inj.mp (hnat'.symm.trans ((congrArg Char.toNat heq).trans hnat))]
  · have hleast := h.least
    have hlt : b.toNat < 0x80 := UInt8.lt_iff_toNat_lt.mp hb
    rw [hnat] at hleast
    rcases Sequence.ofLead?_cases hlead with ⟨-, hl, -⟩ | ⟨-, hl, -⟩ | ⟨-, hl, -⟩ <;> omega

/-! ### Well-formed bytes -/

/-- Bytes that are read without a malformed run are those of the code points read. -/
theorem encode_of_marks (h : marks bytes = text.map some) : encode text = bytes := by
  induction text generalizing bytes with
  | nil => exact (marks_eq_nil_iff.mp h).symm
  | cons c text ih =>
    cases bytes with
    | nil => cases h
    | cons b bytes =>
      rw [marks, marksFrom, step, enter] at h
      rw [encode, List.flatMap_cons]
      split at h
      · rename_i hascii
        obtain ⟨hc, hrest⟩ := List.cons.inj h
        rw [← Option.some.inj hc, encodeChar_ofUInt8 hascii]
        exact congrArg _ (ih hrest)
      · split at h
        · rename_i q hlead
          obtain ⟨m, hm⟩ : ∃ m, q.missing = m + 1 := by
            rcases Sequence.ofLead?_cases hlead with ⟨hm, -⟩ | ⟨hm, -⟩ | ⟨hm, -⟩ <;>
              exact ⟨_, hm⟩
          obtain ⟨c', text', bytes', heq, hq, rfl, hrest⟩ := exists_of_marksFrom_some hm h
          obtain ⟨rfl, rfl⟩ := List.cons.inj heq
          rw [encodeChar_of_standsAt hlead hq hm, List.cons_append]
          exact congrArg _ (congrArg _ (ih hrest))
        · cases (List.cons.inj h).1

/-- All marks are code points if they make a text. -/
theorem eq_map_of_mapM {marks : List (Option Char)} (h : marks.mapM id = some text) :
    marks = text.map some := by
  induction marks generalizing text with
  | nil =>
    obtain rfl := Option.some.inj h
    rfl
  | cons mark marks ih =>
    rw [List.mapM_cons] at h
    obtain ⟨c, hc, h⟩ := Option.bind_eq_some_iff.mp h
    obtain ⟨cs, hcs, h⟩ := Option.bind_eq_some_iff.mp h
    obtain rfl := Option.some.inj h
    rw [List.map_cons, ← ih hcs]
    exact congrArg (· :: marks) hc

/-- Strict decoding gives a text if, and only if, the bytes are those of the text. -/
theorem decode?_eq_some_iff : decode? bytes = some text ↔ encode text = bytes :=
  ⟨fun h => encode_of_marks (eq_map_of_mapM h), fun h => h ▸ decode?_encode text⟩

end Lexing.Utf8
