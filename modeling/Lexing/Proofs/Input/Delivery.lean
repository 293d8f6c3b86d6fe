import Lexing.Proofs.Input.Backlog
import Lexing.Proofs.Text.Utf8

/-!
# Bytes that are delivered in reads

A byte source delivers its bytes in reads of any size, with interruptions between them, until the
input ends or a read fails. What it decodes to is decided by the bytes and the ending alone: it is
what decoding the same bytes from a single buffer gives, except that a failure drops a sequence that
lacks continuation bytes.

Decoding one code point looks no further than the byte after it. So the bytes of a code point decode
to it whatever comes after them, as long as the next byte is the same or there is none.

## Main definitions

* `ByteSource.Delivers` : the bytes of a source and how it ends.
* `Utf8.IsUnfinished` : a sequence that lacks continuation bytes.

## Main results

* `ByteSource.Delivers.decode_cases` : one code point.
* `ByteSource.Delivers.exists_decodesTo_prefix` : all code points.
* `ByteSource.decodesTo_ofString` : the bytes of a text decode to the text.
-/

namespace Lexing

/-- The bytes are continuation bytes, and fewer than `n`. -/
def Utf8.Lacks (n : Nat) (bytes : List UInt8) : Prop :=
  bytes.length < n ∧ ∀ b ∈ bytes, isContinuation b = true

/-- Nothing, or a sequence that lacks continuation bytes. -/
def Utf8.IsUnfinished : List UInt8 → Prop
  | [] => True
  | lead :: rest => ∃ q, Sequence.ofLead? lead = some q ∧ Lacks q.missing rest

/-- A byte that begins a sequence cannot stand inside one. -/
theorem Utf8.isContinuation_of_ofLead? {b : UInt8} {q : Sequence}
    (h : Sequence.ofLead? b = some q) : isContinuation b = false ∧ ¬b < 0x80 := by
  have hlead : 0xC2 ≤ b.toNat := by
    unfold Sequence.ofLead? at h
    simp only [UInt8.le_iff_toNat_le, UInt8.reduceToNat] at h
    grind
  simp only [isContinuation, UInt8.le_iff_toNat_le, UInt8.lt_iff_toNat_lt, UInt8.reduceToNat,
    Bool.and_eq_false_iff, decide_eq_false_iff_not]
  omega

/-- The reads deliver the bytes of the list, and then the input ends or a read fails with the given
cause. Whatever comes after a failure does not matter. -/
inductive Delivery.Supply : List Delivery → List UInt8 → Option String → Prop
  | ended : Supply [] [] none
  | failed (cause : String) (later : List Delivery) :
      Supply (.failed cause :: later) [] (some cause)
  | interrupted {reads : List Delivery} {p : List UInt8} {ending : Option String}
      (h : Supply reads p ending) : Supply (.interrupted :: reads) p ending
  | bytes {data : List UInt8} {reads : List Delivery} {p : List UInt8} {ending : Option String}
      (hdata : data ≠ []) (h : Supply reads p ending) :
      Supply (.bytes data :: reads) (data ++ p) ending

namespace ByteSource

/-- The source delivers the bytes of the list, and then the input ends or a read fails with the
given cause. -/
def Delivers (s : ByteSource) (p : List UInt8) (ending : Option String) : Prop :=
  ∃ more, Delivery.Supply s.reads more ending ∧ p = s.buffer ++ more

variable {s : ByteSource} {p : List UInt8} {ending : Option String}

theorem delivers_ofBytes (p : List UInt8) : (ofBytes p).Delivers p none :=
  ⟨[], .ended, (List.append_nil p).symm⟩

/-! ### One byte -/

/-- What looking at the next byte gives, if the input is over. -/
def overWith {α : Type} : Option String → Pulled α
  | none => .done
  | some cause => .failed cause

/-- Reads that deliver no byte show how the input ends. -/
theorem Delivers.peek_nil (h : s.Delivers [] ending) :
    ∃ t, s.peek = (overWith ending, t) ∧ (ending = none → t.Delivers [] none) := by
  obtain ⟨more, hreads, hp⟩ := h
  obtain ⟨hbuffer, rfl⟩ := List.append_eq_nil_iff.mp hp.symm
  rw [peek, hbuffer]
  generalize s.reads = reads at hreads
  generalize hnil : ([] : List UInt8) = p at hreads
  induction hreads with
  | ended => exact ⟨{}, rfl, fun _ => delivers_ofBytes []⟩
  | failed cause later => exact ⟨_, rfl, fun hcause => absurd hcause (Option.some_ne_none cause)⟩
  | interrupted _ ih => exact ih hnil
  | bytes hdata => exact absurd (List.append_eq_nil_iff.mp hnil.symm).1 hdata

/-- The next byte is the first of those to be delivered. -/
theorem Delivers.peek_cons {b : UInt8} (h : s.Delivers (b :: p) ending) :
    ∃ t, s.peek = (.item b, t) ∧ t.Delivers (b :: p) ending ∧ t.consume.Delivers p ending := by
  obtain ⟨more, hreads, hp⟩ := h
  rw [peek]
  split
  · rename_i c cs hbuffer
    rw [hbuffer] at hp
    obtain ⟨rfl, rfl⟩ := List.cons.inj hp
    exact ⟨s, rfl, ⟨more, hreads, by rw [hbuffer]; rfl⟩, more, hreads,
      by rw [consume, hbuffer]; rfl⟩
  · rename_i hbuffer
    rw [hbuffer, List.nil_append] at hp
    generalize s.reads = reads at hreads
    induction hreads with
    | ended => exact absurd hp (List.cons_ne_nil b p)
    | failed => exact absurd hp (List.cons_ne_nil b p)
    | interrupted _ ih => exact ih hp
    | @bytes data reads more _ hdata hreads =>
      obtain ⟨c, cs, rfl⟩ := List.exists_cons_of_ne_nil hdata
      obtain ⟨rfl, rfl⟩ := List.cons.inj hp
      exact ⟨⟨b :: cs, reads⟩, rfl, ⟨more, hreads, rfl⟩, more, hreads, rfl⟩

/-! ### One code point -/

/-- The bytes `w` decode to `c`, also before `more` in a single buffer if `more` begins like `rest`.
-/
def Yields (decode : ByteSource → Pulled Char × ByteSource) (w rest : List UInt8) (c : Char) :
    Prop :=
  ∀ more, (more = [] ∨ more.head? = rest.head?) →
    decode (ofBytes (w ++ more)) = (.item c, ofBytes more)

/-- A sequence is completed or ended early, unless the input fails before. -/
theorem Delivers.complete_cases (n : Nat) (q : Utf8.Sequence) (h : s.Delivers p ending) :
    (∃ w rest c t, p = w ++ rest ∧ (∀ b ∈ w, Utf8.isContinuation b = true) ∧
      complete n q s = (.item c, t) ∧ t.Delivers rest ending ∧ Yields (complete n q) w rest c ∧
      (ending = none ∨ ¬Utf8.Lacks n p)) ∨
    ∃ cause t, ending = some cause ∧ complete n q s = (.failed cause, t) ∧ Utf8.Lacks n p := by
  induction n generalizing q s p with
  | zero => exact .inl ⟨[], p, _, s, rfl, by simp, rfl, h, fun more _ => rfl, by simp [Utf8.Lacks]⟩
  | succ n ih =>
    rcases p with _ | ⟨b, p⟩
    · obtain ⟨t, hpeek, ht⟩ := h.peek_nil
      rw [complete, hpeek]
      rcases ending with _ | cause
      · refine .inl ⟨[], [], Utf8.replacement, t, rfl, by simp, rfl, ht rfl, fun more hmore => ?_,
          .inl rfl⟩
        obtain rfl : more = [] := hmore.elim id fun hhead => by simpa using hhead
        rfl
      · exact .inr ⟨cause, t, rfl, rfl, Nat.zero_lt_succ n, by simp⟩
    · obtain ⟨t, hpeek, hkept, ht⟩ := h.peek_cons
      rw [complete, hpeek]
      by_cases hb : Utf8.isContinuation b = true
      · simp only [hb, if_true]
        have hlacks : Utf8.Lacks (n + 1) (b :: p) ↔ Utf8.Lacks n p := by simp [Utf8.Lacks, hb]
        rw [hlacks]
        rcases ih (q.push b) ht with ⟨w, rest, c, u, rfl, hw, hc, hu, hyields, hends⟩ | hfailed
        · refine .inl ⟨b :: w, rest, c, u, rfl, List.forall_mem_cons.mpr ⟨hb, hw⟩, hc, hu,
            fun more hmore => ?_, hends⟩
          rw [complete, peek]
          simp only [ofBytes, List.cons_append, hb, if_true]
          exact hyields more hmore
        · exact .inr hfailed
      · simp only [Bool.not_eq_true] at hb
        simp only [hb]
        refine .inl ⟨[], b :: p, Utf8.replacement, t, rfl, by simp, rfl, hkept,
          fun more hmore => ?_, .inr (by simp [Utf8.Lacks, hb])⟩
        rcases hmore with rfl | hhead
        · rfl
        · obtain ⟨cs, rfl⟩ := List.head?_eq_some_iff.mp hhead
          rw [complete, peek]
          simp only [ofBytes, List.nil_append, hb]
          rfl

/-- The next code point is decoded from the first bytes, unless the input is over, or fails within a
sequence. -/
theorem Delivers.decode_cases (h : s.Delivers p ending) :
    (p = [] ∧ ∃ t, s.decode = (overWith ending, t)) ∨
    (∃ b w rest c t, p = b :: w ++ rest ∧ (∀ b ∈ w, Utf8.isContinuation b = true) ∧
      s.decode = (.item c, t) ∧ t.Delivers rest ending ∧ Yields decode (b :: w) rest c ∧
      (ending = none ∨ ¬Utf8.IsUnfinished p)) ∨
    ∃ cause t, ending = some cause ∧ s.decode = (.failed cause, t) ∧ Utf8.IsUnfinished p := by
  rcases p with _ | ⟨b, p⟩
  · obtain ⟨t, hpeek, -⟩ := h.peek_nil
    refine .inl ⟨rfl, t, ?_⟩
    rw [decode, hpeek]
    rcases ending with _ | cause <;> rfl
  · obtain ⟨t, hpeek, -, ht⟩ := h.peek_cons
    have hbuffer (more : List UInt8) :
        (ofBytes (b :: more)).peek = (.item b, ofBytes (b :: more)) :=
      rfl
    rw [decode, hpeek]
    refine .inr ?_
    by_cases hascii : b < 0x80
    · simp only [hascii, if_true]
      refine .inl ⟨b, [], p, _, _, rfl, by simp, rfl, ht, fun more _ => ?_, .inr ?_⟩
      · rw [List.singleton_append, decode, hbuffer]
        simp only [hascii, if_true]
        rfl
      · rintro ⟨q, hlead, -⟩
        exact (Utf8.isContinuation_of_ofLead? hlead).2 hascii
    · simp only [hascii, if_false]
      cases hlead : Utf8.Sequence.ofLead? b with
      | none =>
        refine .inl ⟨b, [], p, _, _, rfl, by simp, rfl, ht, fun more _ => ?_,
          .inr (by simp [Utf8.IsUnfinished, hlead])⟩
        rw [List.singleton_append, decode, hbuffer]
        simp only [hascii, if_false, hlead]
        rfl
      | some q =>
        rcases ht.complete_cases q.missing q with ⟨w, rest, c, u, rfl, hw, hc, hu, hyields, hends⟩ |
          ⟨cause, u, hending, hfailed, hlacks⟩
        · refine .inl ⟨b, w, rest, c, u, rfl, hw, hc, hu, fun more hmore => ?_, ?_⟩
          · rw [List.cons_append, decode, hbuffer]
            simp only [hascii, if_false, hlead]
            exact hyields more hmore
          · refine hends.imp_right fun hnot => ?_
            rintro ⟨q', hlead', hlacks⟩
            obtain rfl : q = q' := Option.some.inj (hlead.symm.trans hlead')
            exact hnot hlacks
        · exact .inr ⟨cause, u, hending, hfailed, q, hlead, hlacks⟩

/-! ### All code points -/

/-- An unfinished sequence at the end of some bytes does not begin within the first code point,
unless it begins with it. -/
theorem suffix_of_isUnfinished {b : UInt8} {w rest r : List UInt8}
    (hw : ∀ b ∈ w, Utf8.isContinuation b = true) (hr : Utf8.IsUnfinished r)
    (hsuffix : r <:+ b :: w ++ rest) : r = b :: w ++ rest ∨ r <:+ rest := by
  rcases List.suffix_cons_iff.mp hsuffix with heq | hsuffix
  · exact .inl heq
  · refine .inr ?_
    induction w with
    | nil => exact hsuffix
    | cons c w ih =>
      obtain ⟨hc, hw⟩ := List.forall_mem_cons.mp hw
      rcases List.suffix_cons_iff.mp hsuffix with rfl | hsuffix
      · obtain ⟨q, hlead, -⟩ := hr
        rw [(Utf8.isContinuation_of_ofLead? hlead).1] at hc
        exact absurd hc Bool.false_ne_true
      · exact ih hw (hsuffix.trans (List.suffix_cons b _)) hsuffix

/-- A source decodes to the same code points as a single buffer with its bytes, less the unfinished
sequence at the end if the input fails. -/
theorem Delivers.exists_decodesTo_prefix (h : s.Delivers p ending) :
    ∃ q r chars, p = q ++ r ∧ Utf8.IsUnfinished r ∧
      (if ending = none then r = [] else ∀ r', r' <:+ p → Utf8.IsUnfinished r' → r' <:+ r) ∧
      s.DecodesTo chars ending ∧ (ofBytes q).DecodesTo chars none := by
  generalize hn : p.length = n
  induction n using Nat.strongRecOn generalizing s p with
  | ind n ih =>
    rcases h.decode_cases with ⟨rfl, t, hdecode⟩ |
      ⟨b, w, rest, c, t, rfl, hw, hdecode, ht, hyields, hends⟩ |
      ⟨cause, t, rfl, hdecode, hunfinished⟩
    · refine ⟨[], [], [], rfl, trivial, ?_, ?_, .done rfl⟩
      · split
        · rfl
        · exact fun _ h _ => h
      · rcases ending with _ | cause
        · exact .done hdecode
        · exact .failed hdecode
    · rw [List.length_append, List.length_cons] at hn
      obtain ⟨q, r, chars, hrest, hr, hlongest, hchars, hbuffer⟩ := ih rest.length (by omega) ht rfl
      refine ⟨b :: w ++ q, r, c :: chars, by rw [hrest, List.append_assoc], hr, ?_,
        .item hdecode hchars, .item (hyields q ?_) hbuffer⟩
      · split
        · rwa [if_pos ‹_›] at hlongest
        · rename_i hending
          rw [if_neg hending] at hlongest
          rintro r' hsuffix hr'
          rcases suffix_of_isUnfinished hw hr' hsuffix with rfl | hsuffix
          · exact absurd hr' (hends.resolve_left hending)
          · exact hlongest r' hsuffix hr'
      · rcases q with _ | ⟨d, q⟩
        · exact .inl rfl
        · exact .inr (by rw [hrest]; rfl)
    · refine ⟨[], p, [], rfl, hunfinished, ?_, .failed hdecode, .done rfl⟩
      rw [if_neg (Option.some_ne_none cause)]
      exact fun _ h _ => h

/-! ### Encoded text -/

/-- The continuation bytes complete a sequence to its code point. -/
theorem complete_continuation {q : Utf8.Sequence} {c : Char} {m : Nat} (h : q.StandsAt c)
    (hm : q.missing = m) (more : List UInt8) :
    complete m q (ofBytes (Utf8.continuation m c.toNat ++ more)) = (.item c, ofBytes more) := by
  induction m generalizing q with
  | zero =>
    rw [complete, h.char?_eq hm, Option.getD_some]
    rfl
  | succ m ih =>
    have hbyte := Utf8.isContinuation_ofNat
      (Nat.mod_lt (c.toNat >>> (6 * m)) (by decide : 0 < 64))
    rw [Utf8.continuation, List.cons_append, complete, peek]
    simp only [ofBytes, hbyte, if_true]
    exact ih (h.push hm) (by rw [Utf8.Sequence.push, hm, Nat.add_sub_cancel])

/-- The bytes of a code point decode to it. -/
theorem decode_encodeChar (c : Char) (more : List UInt8) :
    (ofBytes (String.utf8EncodeChar c ++ more)).decode = (.item c, ofBytes more) := by
  rcases Utf8.encodeChar_cases c with ⟨b, hascii, rfl, hbytes⟩ | ⟨b, q, m, hq, hlead, hm, hbytes⟩
  · rw [hbytes, List.singleton_append, decode, peek]
    simp only [ofBytes, hascii, if_true]
    rfl
  · have hascii := (Utf8.isContinuation_of_ofLead? hlead).2
    rw [hbytes, List.cons_append, decode, peek]
    simp only [ofBytes, hascii, if_false, hlead, hm]
    exact complete_continuation hq hm more

theorem decodesTo_encode (text : List Char) : (ofBytes (Utf8.encode text)).DecodesTo text none := by
  induction text with
  | nil => exact .done rfl
  | cons c cs ih =>
    rw [Utf8.encode, List.flatMap_cons]
    exact .item (decode_encodeChar c _) ih

/-- The bytes of a text are those of its code points. -/
theorem toList_toUTF8 (text : String) : text.toUTF8.toList = Utf8.encode text.toList := by
  have hloop (data : ByteArray) (i : Nat) (taken : List UInt8) :
      ByteArray.toList.loop data i taken = taken.reverse ++ data.data.toList.drop i := by
    fun_induction ByteArray.toList.loop data i taken with
    | case1 i taken hi ih =>
      have hdrop : data.data.toList.drop i = data.get! i :: data.data.toList.drop (i + 1) := by
        rw [List.drop_eq_getElem_cons (l := data.data.toList) hi]
        exact congrArg (· :: _) (getElem!_pos data.data i hi).symm
      rw [ih, hdrop, List.reverse_cons, List.append_assoc, List.singleton_append]
    | case2 i taken hi =>
      rw [List.drop_eq_nil_of_le (Nat.le_of_not_lt hi), List.append_nil]
  rw [ByteArray.toList, hloop, String.toUTF8, ← String.utf8Encode_toList, List.utf8Encode,
    List.toList_data_toByteArray]
  rfl

/-- A source over a text decodes to it. -/
theorem decodesTo_ofString (text : String) : (ofString text).DecodesTo text.toList none := by
  rw [ofString, toList_toUTF8]
  exact decodesTo_encode text.toList

end ByteSource

end Lexing
