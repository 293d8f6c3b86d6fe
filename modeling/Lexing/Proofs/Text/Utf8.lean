import Lexing.Text.Utf8

/-!
# Decoding what was encoded

A sequence that is being read stands at some code point if it has the leading bits of that code
point and is not longer than the code point needs. Reading the continuation bytes of the code point
keeps it there, so that the sequence never stops being viable and completes to the code point.

## Main definitions

* `Utf8.continuation` : the continuation bytes of a code point.
* `Utf8.Sequence.StandsAt` : the sequence has the leading bits of a code point.

## Main results

* `Utf8.encodeChar_cases` : the bytes of a code point.
* `Utf8.marksFrom_encodeChar` : the bytes of a code point are read as that code point.
* `Utf8.decode?_encode`, `Utf8.decodeLossy_encode` : encoded text decodes to itself.
* `Utf8.marks_eq_nil_iff` : bytes never decode to nothing.
-/

namespace Lexing.Utf8

/-! ### Sequences at a code point -/

/-- The last `m` bytes of the encoding of a code point, six bits in each. -/
def continuation : Nat → Nat → List UInt8
  | 0, _ => []
  | m + 1, v => .ofNat (v >>> (6 * m) % 64 + 0x80) :: continuation m v

/-- The number of a code point gives the code point. -/
theorem scalar?_toNat (c : Char) : scalar? c.toNat = some c := by
  have hvalid : c.toNat.isValidChar := c.valid
  rw [scalar?, dif_pos hvalid]
  rfl

/-- A number that gives a code point is the number of that code point. -/
theorem toNat_of_scalar? {n : Nat} {c : Char} (h : scalar? n = some c) : c.toNat = n := by
  by_cases hvalid : n.isValidChar
  · rw [scalar?, dif_pos hvalid] at h
    obtain rfl := Option.some.inj h
    rfl
  · rw [scalar?, dif_neg hvalid] at h
    cases h

namespace Sequence

/-- The sequence has the leading bits of the code point `c`, which needs a sequence so long. -/
structure StandsAt (q : Sequence) (c : Char) : Prop where
  code : q.code = c.toNat >>> (6 * q.missing)
  least : q.least ≤ c.toNat

variable {q : Sequence} {c : Char}

/-- The code point itself is a completion of the sequence. -/
theorem StandsAt.isViable (h : q.StandsAt c) : q.isViable = true := by
  have hpow : 0 < 2 ^ (6 * q.missing) := Nat.pow_pos (by decide)
  have hcode := h.code
  rw [Nat.shiftRight_eq_div_pow] at hcode
  have hfirst : q.code * 2 ^ (6 * q.missing) ≤ c.toNat := hcode ▸ Nat.div_mul_le_self ..
  have hlast : c.toNat < q.code * 2 ^ (6 * q.missing) + 2 ^ (6 * q.missing) := by
    have := Nat.lt_div_mul_add (a := c.toNat) hpow
    rwa [← hcode] at this
  have hvalid : c.toNat < 0xD800 ∨ 0xDFFF < c.toNat ∧ c.toNat < 0x110000 := c.valid
  have hleast := h.least
  simp only [Sequence.isViable, Nat.shiftLeft_eq, Nat.one_mul, Bool.and_eq_true,
    Bool.not_eq_true', decide_eq_true_eq, Bool.and_eq_false_iff, decide_eq_false_iff_not]
  omega

/-- The next continuation byte keeps the sequence at its code point. -/
theorem StandsAt.push {m : Nat} (h : q.StandsAt c) (hm : q.missing = m + 1) :
    (q.push (.ofNat (c.toNat >>> (6 * m) % 64 + 0x80))).StandsAt c where
  code := by
    have hbyte : (UInt8.ofNat (c.toNat >>> (6 * m) % 64 + 0x80)).toNat =
        c.toNat >>> (6 * m) % 64 + 0x80 := by
      rw [UInt8.toNat_ofNat']
      omega
    have hcode : q.code = c.toNat >>> (6 * m) / 64 := by
      rw [h.code, hm, Nat.mul_succ, Nat.shiftRight_add, Nat.shiftRight_eq_div_pow _ 6]
    simp only [Sequence.push, hbyte, hm, Nat.add_sub_cancel]
    omega
  least := h.least

/-- A complete sequence is the code point. -/
theorem StandsAt.char?_eq (h : q.StandsAt c) (hm : q.missing = 0) : q.char? = some c := by
  have hcode : q.code = c.toNat := by simpa [hm] using h.code
  rw [Sequence.char?, if_pos (hcode ▸ h.least), hcode, scalar?_toNat]

end Sequence

/-! ### Reading a code point -/

theorem isContinuation_ofNat {n : Nat} (h : n < 64) : isContinuation (.ofNat (n + 0x80)) := by
  have hbyte : (UInt8.ofNat (n + 0x80)).toNat = n + 0x80 := by
    rw [UInt8.toNat_ofNat']
    omega
  simp only [isContinuation, UInt8.le_iff_toNat_le, hbyte, Bool.and_eq_true, decide_eq_true_eq]
  exact ⟨by simp, show n + 128 ≤ 191 by omega⟩

/-- Reading a continuation byte of its code point goes on with a sequence. -/
theorem step_continuation {q : Sequence} {c : Char} {m : Nat} (h : q.StandsAt c)
    (hm : q.missing = m + 1) :
    step (some q) (.ofNat (c.toNat >>> (6 * m) % 64 + 0x80)) =
      if m = 0 then ([some c], none)
      else ([], some (q.push (.ofNat (c.toNat >>> (6 * m) % 64 + 0x80)))) := by
  have hpush := h.push hm
  have hmissing : (q.push (.ofNat (c.toNat >>> (6 * m) % 64 + 0x80))).missing = m := by
    simp [Sequence.push, hm]
  have hbyte := isContinuation_ofNat (Nat.mod_lt (c.toNat >>> (6 * m)) (by decide : 0 < 64))
  simp only [step, hbyte, hpush.isViable, Bool.and_self, ↓reduceIte, hmissing]
  split
  · rename_i hzero
    rw [hpush.char?_eq (hmissing.trans hzero)]
  · rfl

/-- The continuation bytes complete a sequence to its code point. -/
theorem marksFrom_continuation {q : Sequence} {c : Char} {m : Nat} (h : q.StandsAt c)
    (hm : q.missing = m + 1) (bytes : List UInt8) :
    marksFrom (some q) (continuation (m + 1) c.toNat ++ bytes) =
      some c :: marksFrom none bytes := by
  induction m generalizing q with
  | zero =>
    rw [continuation, List.cons_append, marksFrom, step_continuation h hm]
    rfl
  | succ m ih =>
    have hrest := ih (h.push hm) (by simp [Sequence.push, hm])
    rw [continuation, List.cons_append, marksFrom, step_continuation h hm]
    simpa using hrest

/-! ### Lead bytes -/

theorem ofLead?_two {n : Nat} (hlo : 2 ≤ n) (hhi : n < 32) :
    Sequence.ofLead? (.ofNat (n + 0xC0)) = some ⟨1, n, 0x80⟩ := by
  have hbyte : (UInt8.ofNat (n + 0xC0)).toNat = n + 192 := by
    rw [UInt8.toNat_ofNat']
    omega
  simp only [Sequence.ofLead?, UInt8.le_iff_toNat_le, hbyte, UInt8.reduceToNat]
  rw [if_pos (by omega), Nat.add_sub_cancel]

theorem ofLead?_three {n : Nat} (hhi : n < 16) :
    Sequence.ofLead? (.ofNat (n + 0xE0)) = some ⟨2, n, 0x800⟩ := by
  have hbyte : (UInt8.ofNat (n + 0xE0)).toNat = n + 224 := by
    rw [UInt8.toNat_ofNat']
    omega
  simp only [Sequence.ofLead?, UInt8.le_iff_toNat_le, hbyte, UInt8.reduceToNat]
  rw [if_neg (by omega), if_pos (by omega), Nat.add_sub_cancel]

theorem ofLead?_four {n : Nat} (hhi : n < 5) :
    Sequence.ofLead? (.ofNat (n + 0xF0)) = some ⟨3, n, 0x10000⟩ := by
  have hbyte : (UInt8.ofNat (n + 0xF0)).toNat = n + 240 := by
    rw [UInt8.toNat_ofNat']
    omega
  simp only [Sequence.ofLead?, UInt8.le_iff_toNat_le, hbyte, UInt8.reduceToNat]
  rw [if_neg (by omega), if_neg (by omega), if_pos (by omega), Nat.add_sub_cancel]

/-- A lead byte is not a code point of its own. -/
theorem enter_of_ofLead? {b : UInt8} {q : Sequence} (h : Sequence.ofLead? b = some q) :
    enter b = ([], some q) := by
  have hascii : ¬b < 0x80 := by
    intro hb
    rw [UInt8.lt_iff_toNat_lt] at hb
    simp only [Sequence.ofLead?, UInt8.le_iff_toNat_le, UInt8.reduceToNat] at h hb
    split at h
    · omega
    · split at h
      · omega
      · split at h
        · omega
        · cases h
  rw [enter, if_neg hascii, h]

/-! ### Encoded text -/

/-- The bytes of a code point are a single byte, or a lead byte and continuation bytes. -/
theorem encodeChar_cases (c : Char) :
    (∃ b, b < 0x80 ∧ Char.ofUInt8 b = c ∧ String.utf8EncodeChar c = [b]) ∨
    ∃ b q m, Sequence.StandsAt q c ∧ Sequence.ofLead? b = some q ∧ q.missing = m + 1 ∧
      String.utf8EncodeChar c = b :: continuation (m + 1) c.toNat := by
  have hval : c.val.toNat = c.toNat := rfl
  have hvalid : c.toNat < 0xD800 ∨ 0xDFFF < c.toNat ∧ c.toNat < 0x110000 := c.valid
  unfold String.utf8EncodeChar
  dsimp only
  rw [hval]
  split
  · have hbyte : (UInt8.ofNat c.toNat).toNat = c.toNat := by
      rw [UInt8.toNat_ofNat']
      omega
    refine .inl ⟨.ofNat c.toNat, ?_, Char.ext (UInt32.toNat_inj.mp hbyte), rfl⟩
    rw [UInt8.lt_iff_toNat_lt, hbyte]
    exact show c.toNat < 128 by omega
  · refine .inr ?_
    split
    · have hmod : c.toNat / 64 % 32 = c.toNat / 64 := by omega
      have hq : Sequence.StandsAt ⟨1, c.toNat / 64, 0x80⟩ c :=
        ⟨(Nat.shiftRight_eq_div_pow _ 6).symm, show 128 ≤ c.toNat by omega⟩
      refine ⟨_, _, 0, hq, ofLead?_two (by omega) (by omega), rfl, ?_⟩
      simp only [continuation, Nat.shiftRight_eq_div_pow, Nat.reduceMul, Nat.reducePow,
        Nat.div_one, hmod]
    · split
      · have hmod : c.toNat / 4096 % 16 = c.toNat / 4096 := by omega
        have hq : Sequence.StandsAt ⟨2, c.toNat / 4096, 0x800⟩ c :=
          ⟨(Nat.shiftRight_eq_div_pow _ 12).symm, show 2048 ≤ c.toNat by omega⟩
        refine ⟨_, _, 1, hq, ofLead?_three (by omega), rfl, ?_⟩
        simp only [continuation, Nat.shiftRight_eq_div_pow, Nat.reduceMul, Nat.reducePow,
          Nat.div_one, hmod]
      · have hmod : c.toNat / 262144 % 8 = c.toNat / 262144 := by omega
        have hq : Sequence.StandsAt ⟨3, c.toNat / 262144, 0x10000⟩ c :=
          ⟨(Nat.shiftRight_eq_div_pow _ 18).symm, show 65536 ≤ c.toNat by omega⟩
        refine ⟨_, _, 2, hq, ofLead?_four (by omega), rfl, ?_⟩
        simp only [continuation, Nat.shiftRight_eq_div_pow, Nat.reduceMul, Nat.reducePow,
          Nat.div_one, hmod]

/-- The bytes of a code point are read as that code point. -/
theorem marksFrom_encodeChar (c : Char) (bytes : List UInt8) :
    marksFrom none (String.utf8EncodeChar c ++ bytes) = some c :: marksFrom none bytes := by
  rcases encodeChar_cases c with ⟨b, hascii, hchar, hbytes⟩ | ⟨b, q, m, hq, hlead, hm, hbytes⟩
  · rw [hbytes, List.singleton_append, marksFrom, step, enter, if_pos hascii, hchar]
    rfl
  · rw [hbytes, List.cons_append, marksFrom, step, enter_of_ofLead? hlead]
    exact marksFrom_continuation hq hm bytes

/-- Encoded text is read as itself, whatever follows it. -/
theorem marksFrom_encode (text : List Char) (bytes : List UInt8) :
    marksFrom none (encode text ++ bytes) = text.map some ++ marksFrom none bytes := by
  induction text with
  | nil => rfl
  | cons c cs ih =>
    rw [encode, List.flatMap_cons, List.append_assoc, marksFrom_encodeChar, List.map_cons,
      List.cons_append]
    exact congrArg _ ih

theorem marks_encode (text : List Char) : marks (encode text) = text.map some := by
  simpa [marks, marksFrom] using marksFrom_encode text []

/-- Encoded text decodes to itself. -/
theorem decodeLossy_encode (text : List Char) : decodeLossy (encode text) = text := by
  simp [decodeLossy, marks_encode, Function.comp_def]

theorem decode?_encode (text : List Char) : decode? (encode text) = some text := by
  rw [decode?, marks_encode]
  induction text with
  | nil => rfl
  | cons c cs ih => simp [ih]

/-! ### Decoding loses no bytes -/

theorem marksFrom_some_ne_nil (q : Sequence) (bytes : List UInt8) :
    marksFrom (some q) bytes ≠ [] := by
  induction bytes generalizing q with
  | nil => simp [marksFrom]
  | cons b bs ih =>
    rw [marksFrom, step]
    split
    · split
      · simp
      · simpa using ih _
    · simp

/-- Bytes never decode to nothing. -/
theorem marks_eq_nil_iff {bytes : List UInt8} : marks bytes = [] ↔ bytes = [] := by
  cases bytes with
  | nil => simp [marks, marksFrom]
  | cons b bs =>
    simp only [marks, marksFrom, step, enter, reduceCtorEq, iff_false]
    split
    · simp
    · split
      · simpa using marksFrom_some_ne_nil _ _
      · simp

end Lexing.Utf8
