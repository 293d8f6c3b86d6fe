import Lexing.Proofs.Input.Delivery

/-!
# Malformed bytes and the text around them

Two lists of bytes decode one after the other as they do apart, provided that the second does not
begin with a continuation byte. A sequence that the first leaves open is then ended by the second as
it is ended by the end of the input.

Encoded text never begins with a continuation byte and leaves no sequence open. So text decodes to
itself whatever stands before and after it, and malformed bytes decode as if the text were not
there.

## Main definitions

* `Utf8.BeginsAfresh` : bytes that cannot go on with a sequence.

## Main results

* `ByteSource.decode_append` : one code point before bytes that begin afresh.
* `ByteSource.decodesTo_append` : all code points.
* `ByteSource.text_survives` : text between arbitrary bytes.
-/

namespace Lexing

/-- The bytes do not begin with a continuation byte. -/
def Utf8.BeginsAfresh (bytes : List UInt8) : Prop :=
  ∀ b ∈ bytes.head?, isContinuation b = false

/-- A code point of one byte is not a continuation byte. -/
theorem Utf8.isContinuation_of_ascii {b : UInt8} (h : b < 0x80) : isContinuation b = false := by
  simp only [isContinuation, UInt8.le_iff_toNat_le, UInt8.lt_iff_toNat_lt, UInt8.reduceToNat,
    Bool.and_eq_false_iff, decide_eq_false_iff_not] at h ⊢
  omega

/-- Text that is not empty begins afresh when it is encoded. -/
theorem Utf8.beginsAfresh_encode {text : List Char} (htext : text ≠ []) (more : List UInt8) :
    BeginsAfresh (encode text ++ more) := by
  obtain ⟨c, cs, rfl⟩ := List.exists_cons_of_ne_nil htext
  rw [encode, List.flatMap_cons, List.append_assoc]
  rcases encodeChar_cases c with ⟨b, hascii, -, hbytes⟩ | ⟨b, q, m, -, hlead, -, hbytes⟩
  · rw [hbytes]
    rintro _ ⟨⟩
    exact isContinuation_of_ascii hascii
  · rw [hbytes]
    rintro _ ⟨⟩
    exact (isContinuation_of_ofLead? hlead).1

namespace ByteSource

variable {p more : List UInt8} {front back : List Char}

/-! ### One code point -/

/-- A sequence is completed or ended early within the bytes before `more`, and `more` does not
matter for it. -/
theorem complete_append (hmore : Utf8.BeginsAfresh more) (n : Nat) (q : Utf8.Sequence)
    (p : List UInt8) :
    ∃ c rest, rest.length ≤ p.length ∧ complete n q (ofBytes p) = (.item c, ofBytes rest) ∧
      complete n q (ofBytes (p ++ more)) = (.item c, ofBytes (rest ++ more)) := by
  induction n generalizing q p with
  | zero => exact ⟨_, p, Nat.le_refl _, rfl, rfl⟩
  | succ n ih =>
    rcases p with _ | ⟨b, p⟩
    · -- The end of the input and a byte that begins afresh both end the sequence.
      refine ⟨Utf8.replacement, [], Nat.le_refl _, rfl, ?_⟩
      rcases more with _ | ⟨b, more⟩
      · rfl
      · rw [List.nil_append, complete, peek]
        simp only [ofBytes, hmore b rfl]
        rfl
    · by_cases hb : Utf8.isContinuation b = true
      · obtain ⟨c, rest, hle, hp, hboth⟩ := ih (q.push b) p
        refine ⟨c, rest, Nat.le_succ_of_le hle, ?_, ?_⟩
        · rw [complete, peek]
          simp only [ofBytes, hb, if_true]
          exact hp
        · rw [List.cons_append, complete, peek]
          simp only [ofBytes, hb, if_true]
          exact hboth
      · rw [Bool.not_eq_true] at hb
        refine ⟨Utf8.replacement, b :: p, Nat.le_refl _, ?_, ?_⟩
        · rw [complete, peek]
          simp only [ofBytes, hb]
          rfl
        · rw [List.cons_append, complete, peek]
          simp only [ofBytes, hb]
          rfl

/-- A code point is decoded from the bytes before `more`, and `more` does not matter for it. -/
theorem decode_append (hmore : Utf8.BeginsAfresh more) (b : UInt8) (p : List UInt8) :
    ∃ c rest, rest.length ≤ p.length ∧ (ofBytes (b :: p)).decode = (.item c, ofBytes rest) ∧
      (ofBytes (b :: p ++ more)).decode = (.item c, ofBytes (rest ++ more)) := by
  have hpeek (p : List UInt8) : (ofBytes (b :: p)).peek = (.item b, ofBytes (b :: p)) := rfl
  rw [List.cons_append, decode, decode, hpeek, hpeek]
  by_cases hascii : b < 0x80
  · simp only [hascii, if_true]
    exact ⟨_, p, Nat.le_refl _, rfl, rfl⟩
  · simp only [hascii, if_false]
    cases Utf8.Sequence.ofLead? b with
    | none => exact ⟨_, p, Nat.le_refl _, rfl, rfl⟩
    | some q => exact complete_append hmore q.missing q p

/-! ### All code points -/

/-- Bytes before others that begin afresh decode as they do alone. -/
theorem decodesTo_append (hmore : Utf8.BeginsAfresh more) (hp : (ofBytes p).DecodesTo front none)
    (hback : (ofBytes more).DecodesTo back none) :
    (ofBytes (p ++ more)).DecodesTo (front ++ back) none := by
  generalize hn : p.length = n
  induction n using Nat.strongRecOn generalizing p front with
  | ind n ih =>
    rcases p with _ | ⟨b, p⟩
    · obtain rfl : front = [] :=
        (Prod.mk.inj (hp.drain_eq.symm.trans (DecodesTo.done rfl).drain_eq)).1
      exact hback
    · obtain ⟨c, rest, hle, hc, hboth⟩ := decode_append hmore b p
      cases hp with
      | done h => cases h.symm.trans hc
      | item h hrest =>
        obtain ⟨rfl, rfl⟩ : _ ∧ _ := by simpa using h.symm.trans hc
        rw [List.length_cons] at hn
        exact .item hboth (ih rest.length (by omega) hrest rfl)

/-- Encoded text before other bytes decodes to itself. -/
theorem decodesTo_encode_append (text : List Char) (hback : (ofBytes more).DecodesTo back none) :
    (ofBytes (Utf8.encode text ++ more)).DecodesTo (text ++ back) none := by
  induction text with
  | nil => exact hback
  | cons c cs ih =>
    rw [Utf8.encode, List.flatMap_cons, List.append_assoc]
    exact .item (decode_encodeChar c _) ih

/-! ### Sources -/

variable {source : ByteSource}

/-- A source that does not fail decodes as a single buffer with its bytes. -/
theorem Delivers.decodesTo_iff (h : source.Delivers p none) {chars : List Char} :
    source.DecodesTo chars none ↔ (ofBytes p).DecodesTo chars none := by
  obtain ⟨q, r, chars', hp, -, hr, hsource, hbuffer⟩ := h.exists_decodesTo_prefix
  rw [if_pos rfl] at hr
  obtain rfl : p = q := by rw [hp, hr, List.append_nil]
  refine ⟨fun hchars => ?_, fun hchars => ?_⟩
  · obtain rfl : chars = chars' :=
      (Prod.mk.inj (hchars.drain_eq.symm.trans hsource.drain_eq)).1
    exact hbuffer
  · obtain rfl : chars = chars' :=
      (Prod.mk.inj (hchars.drain_eq.symm.trans hbuffer.drain_eq)).1
    exact hsource

/-- A source that does not fail decodes to its text. -/
theorem Delivers.decodesTo_text (h : source.Delivers p none) :
    source.DecodesTo source.text none := by
  obtain ⟨q, r, chars, -, -, -, hsource, -⟩ := h.exists_decodesTo_prefix
  have htext : source.text = chars := congrArg Prod.fst hsource.drain_eq
  exact htext ▸ hsource

theorem Delivers.text_eq (h : source.Delivers p none) {chars : List Char}
    (hchars : (ofBytes p).DecodesTo chars none) : source.text = chars :=
  congrArg Prod.fst (h.decodesTo_iff.mpr hchars).drain_eq

/-- As long as there are bytes, a code point is decoded and takes at least one of them. -/
theorem Delivers.exists_decode (h : source.Delivers p none) (hp : p ≠ []) :
    ∃ c next taken rest, source.decode = (.item c, next) ∧ p = taken ++ rest ∧ taken ≠ [] ∧
      next.Delivers rest none := by
  rcases h.decode_cases with ⟨hnil, -⟩ | ⟨b, w, rest, c, next, heq, -, hdecode, hnext, -⟩ |
    ⟨cause, -, hending, -⟩
  · exact absurd hnil hp
  · exact ⟨c, next, b :: w, rest, hdecode, heq, List.cons_ne_nil b w, hnext⟩
  · exact absurd hending.symm (Option.some_ne_none cause)

/-- Text between arbitrary bytes is decoded to itself, and the bytes before and after it are decoded
as they are alone. In whatever reads the bytes are delivered, encoded text alone decodes to itself,
every list of bytes decodes to a text without failing, and each code point takes at least one byte.
-/
theorem text_survives {a b : List UInt8} {text : List Char} (htext : text ≠ [])
    {before after whole : ByteSource} (hbefore : before.Delivers a none)
    (hafter : after.Delivers b none)
    (hwhole : whole.Delivers (a ++ Utf8.encode text ++ b) none) :
    whole.text = before.text ++ text ++ after.text ∧
      (∀ (source : ByteSource) (chars : List Char),
        source.Delivers (Utf8.encode chars) none → source.text = chars) ∧
      ∀ (source : ByteSource) (p : List UInt8), source.Delivers p none →
        source.DecodesTo source.text none ∧
        (p ≠ [] → ∃ c next taken rest, source.decode = (.item c, next) ∧ p = taken ++ rest ∧
          taken ≠ [] ∧ next.Delivers rest none) := by
  refine ⟨?_, fun source chars hsource => hsource.text_eq (decodesTo_encode chars),
    fun source p hsource => ⟨hsource.decodesTo_text, hsource.exists_decode⟩⟩
  rw [List.append_assoc] at hwhole ⊢
  have ha := hbefore.decodesTo_iff.mp hbefore.decodesTo_text
  have hb := hafter.decodesTo_iff.mp hafter.decodesTo_text
  exact hwhole.text_eq (decodesTo_append (Utf8.beginsAfresh_encode htext b) ha
    (decodesTo_encode_append text hb))

/-- The first two bytes of a euro sign, an `é` that is divided between two reads, and two bytes that
cannot stand alone. -/
def scatteredSample : ByteSource :=
  { reads := [.bytes [0xE2, 0x82, 0xC3], .interrupted, .bytes [0xA9, 0xAC], .bytes [0xF0]] }

/-- The letter stands between one replacement for the bytes before it and two for those after it. -/
theorem text_survives_scatteredSample :
    scatteredSample.Delivers ([0xE2, 0x82] ++ Utf8.encode ['é'] ++ [0xAC, 0xF0]) none ∧
      scatteredSample.text = ['\uFFFD'] ++ ['é'] ++ ['\uFFFD', '\uFFFD'] := by
  have hwhole : scatteredSample.Delivers
      ([0xE2, 0x82] ++ Utf8.encode ['é'] ++ [0xAC, 0xF0]) none :=
    ⟨_, .bytes (by decide) (.interrupted (.bytes (by decide) (.bytes (by decide) .ended))), rfl⟩
  exact ⟨hwhole, (text_survives (List.cons_ne_nil _ _) (delivers_ofBytes [0xE2, 0x82])
    (delivers_ofBytes [0xAC, 0xF0]) hwhole).1⟩

end ByteSource

end Lexing
