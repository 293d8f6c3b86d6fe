import Lexing.Proofs.Language.Comments
import Lexing.Proofs.Lexicon.Replay
import Lexing.Proofs.Rule.QuotationGrammar
import Lexing.Proofs.Text.WellFormed

/-!
# The strings of Go

A string is made of parts between quotation marks, and each part stands for bytes: those of a code
point, which stands for itself or is given by a sign or by its number, or a single byte, which is
given by two hexadecimal or three octal digits. A part that stands for a single byte need not be
text on its own, since the parts around it may supply the bytes that are missing.

So whether the value is text is seen from the bytes of all parts together, when the token is
emitted. Bytes that are well formed give the text that they encode. Other bytes make the token
illegal, with one report where the token begins, and the value is their lossy decoding.

## Main definitions

* `Language.Go.StringPart` : the parts of strings.

## Main results

* `Quotation.exists_eval_of_items` : quoted texts made of items.
* `Scanner.assembled_of_encode`, `Scanner.assembled_of_malformed` : the check of a value.
* `Rule.exists_evalFirst_of_misses` : rules that are tried in vain.
* `Language.Go.StringPart.item` : parts are what the rule for strings decodes.
* `Language.Go.string_assembles_bytes` : the token of a string.
-/

namespace Lexing

open Scanner

variable {flags : Flags} {s t : Scanner} {c : Char} {w rest : List Char} {bytes : List UInt8}

/-! ### Quoted texts made of items -/

/-- Between its delimiters, a quoted text that is made of items stands for their bytes. -/
theorem Quotation.exists_eval_of_items {q : Quotation} {escapes : List Rule}
    {items : List (List Char × List UInt8)} (flags : Flags) (hq : q.nested = false)
    (hclosing : q.escape ≠ some q.closing) (hline : q.escape ≠ some '\n')
    (hescapes : ∀ r ∈ escapes, r.IsEscape) (hmax : q.maxLength = none)
    (hitems : ∀ i ∈ items, q.Item escapes i.1 i.2) (hs : s.IsFresh)
    (hup : s.upcoming.chars = q.opening :: (items.flatMap Prod.fst ++ q.closing :: rest)) :
    ∃ t, (Rule.quotation q escapes).eval flags s = .ok (true, t) ∧
      s.Consumes (q.opening :: (items.flatMap Prod.fst ++ [q.closing])) t ∧
      t.draft.value = items.flatMap Prod.snd ∧ t.draft.kind = q.kind ∧
      t.draft.diagnostics = #[] := by
  obtain ⟨u, bound, hopening, hup', hbound, hempty, hkind, hclean, hscan⟩ :=
    exists_opened (Rule.evalFirst flags escapes) hs hup
  have hwithin : items.length < bound := by
    have hlength := length_le_of_items hitems
    rw [List.length_append] at hbound
    omega
  obtain ⟨t, ht, hrenders⟩ := exists_body_of_items hq hclosing hline hescapes hitems hclean
    (by simp [hmax]) hwithin hup'
  refine ⟨t, hscan t ht, hopening.trans hrenders.consumes, ?_, hrenders.kind.trans hkind,
    hrenders.diagnostics.trans hclean⟩
  rw [hrenders.value, hempty, List.nil_append]

/-! ### The check of a value -/

/-- A draft whose value is the encoding of a text becomes a token with this text as value. -/
theorem Scanner.assembled_of_encode {text : List Char} (h : Utf8.encode text = s.draft.value) :
    s.checkValue.assembled.kind = s.emittedKind ∧
      s.checkValue.assembled.diagnostics = s.draft.diagnostics.toList ∧
      s.checkValue.assembled.value = String.ofList text := by
  rw [checkValue_of_value_eq h.symm]
  exact ⟨rfl, rfl, valueText_of_value_eq h.symm⟩

/-- A draft whose value is not the encoding of a text becomes an illegal token, with a report where
it begins. -/
theorem Scanner.assembled_of_malformed (h : ¬∃ text, Utf8.encode text = s.draft.value) :
    s.checkValue.assembled.kind = Kind.illegal ∧
      s.checkValue.assembled.diagnostics = (s.draft.diagnostics.push
        { position := s.start, problem := .malformedValue s.valueText }).toList ∧
      s.checkValue.assembled.value = String.ofList (Utf8.decodeLossy s.draft.value) := by
  have hnone : ¬(Utf8.decode? s.draft.value).isSome = true := by
    rw [Option.isSome_iff_exists]
    rintro ⟨text, htext⟩
    exact h ⟨text, Utf8.decode?_eq_some_iff.mp htext⟩
  rw [checkValue, if_neg hnone]
  exact ⟨rfl, rfl, rfl⟩

/-! ### Rules that are tried in vain -/

/-- Rules that do not match at a code point leave it to the rules after them. -/
theorem Rule.exists_evalFirst_of_misses {rules : List Rule} (others : List Rule) (hs : s.IsFresh)
    (hc : s.current? = some c)
    (hmiss : ∀ r ∈ rules, ∀ s, s.IsFresh → s.current? = some c →
      ∃ t, r.eval flags s = .ok (false, t) ∧ s.Restores t) :
    ∃ t, s.Restores t ∧ evalFirst flags (rules ++ others) s = evalFirst flags others t := by
  induction rules generalizing s with
  | nil => exact ⟨s, .refl s, rfl⟩
  | cons r rules ih =>
    obtain ⟨hr, hmiss⟩ := List.forall_mem_cons.mp hmiss
    obtain ⟨t, ht, hrestores⟩ := hr s hs hc
    have hup : t.upcoming.chars = s.upcoming.chars := congrArg View.upcoming hrestores.view
    have hct : t.current? = some c := by rw [current?_eq, hup, ← current?_eq, hc]
    obtain ⟨u, hu, hrest⟩ := ih (hrestores.isFresh hs) hct hmiss
    refine ⟨u, hrestores.trans hu, ?_⟩
    rw [List.cons_append, evalFirst_cons, ht]
    exact hrest

/-- A rule for literals does not match if none of them is upcoming. -/
theorem LiteralRule.attempt_eq_none {r : LiteralRule} (h : r.longest s = 0) :
    r.attempt s = none := by
  rw [attempt, h]
  rfl

/-- A comment whose opening literal is not upcoming is tried in vain. -/
theorem CommentRule.eval_of_not_begun {r : CommentRule} (h : r.opening.longest s = 0) :
    (Rule.comment r).eval flags s = .ok (false, s) := by
  rw [Rule.eval_comment, attempt, LiteralRule.attempt_eq_none h]
  rfl

/-- A quoted text whose opening delimiter is not upcoming is tried in vain. -/
theorem Quotation.eval_of_not_begun {q : Quotation} {escapes : List Rule}
    (h : s.current? ≠ some q.opening) :
    (Rule.quotation q escapes).eval flags s = .ok (false, s) := by
  rw [Rule.eval_quotation, scan]
  exact if_neg h

namespace Language.Go

/-- A number whose lead is not upcoming is tried in vain. -/
theorem eval_afterLead_of_not_led {f : Numeral} {leads : List String}
    (hsign : s.isIn f.sign = false)
    (h : LiteralRule.longest { words := .ofWords leads } s = 0) :
    (afterLead f leads).eval flags s = .ok (false, s.rewind) := by
  have htakeSign : f.takeSign s = s := by
    rw [Numeral.takeSign, hsign]
    rfl
  rw [afterLead, Rule.eval_number, Numeral.scan, htakeSign, Rule.evalLead, Rule.eval_literal,
    LiteralRule.attempt_eq_none h]
  rfl

/-- The rules before the one for strings do not match at a quotation mark. -/
theorem exists_miss_of_mark : ∀ r ∈ rules.take 7, ∀ s : Scanner, s.IsFresh →
    s.current? = some '"' → ∃ t, r.eval flags s = .ok (false, t) ∧ s.Restores t := by
  have hcomment {r : CommentRule} (hwords : ∀ cs, r.opening.words.longest ('"' :: cs) = 0)
      (s : Scanner) (_ : s.IsFresh) (hc : s.current? = some '"') :
      ∃ t, (Rule.comment r).eval flags s = .ok (false, t) ∧ s.Restores t := by
    refine ⟨s, CommentRule.eval_of_not_begun ?_, .refl s⟩
    rw [LiteralRule.longest, upcoming_of_current? hc, hwords]
  have hled {f : Numeral} {leads : List String} (hsign : f.sign.contains '"' = false)
      (hwords : ∀ cs, (WordTree.ofWords leads).longest ('"' :: cs) = 0) (s : Scanner)
      (hs : s.IsFresh) (hc : s.current? = some '"') :
      ∃ t, (afterLead f leads).eval flags s = .ok (false, t) ∧ s.Restores t := by
    refine ⟨_, eval_afterLead_of_not_led ?_ ?_, (Consumes.refl s).restores_rewind hs⟩
    · rw [isIn, hc]
      exact hsign
    · rw [LiteralRule.longest, upcoming_of_current? hc, hwords]
  simp only [rules, List.take_succ_cons, List.take_zero, List.forall_mem_cons]
  refine ⟨hcomment fun _ => rfl, hcomment fun _ => rfl, fun s _ hc => ?_,
    hled (by decide) fun _ => rfl, hled (by decide) fun _ => rfl, hled (by decide) fun _ => rfl,
    fun s hs hc => ?_, List.forall_mem_nil _⟩
  · exact ⟨s, Quotation.eval_of_not_begun (by rw [hc]; decide), .refl s⟩
  · rw [Rule.eval_number]
    exact Numeral.exists_miss (fun _ => rfl) rfl hs hc (by decide) (by decide) (by decide)
      (by decide) (by decide)

/-! ### Parts -/

/-- The signs that may stand after a backslash, with what they stand for. -/
def signs : List CharCode :=
  [⟨'"', '"'⟩, ⟨'\\', '\\'⟩, .alert, .backspace, .formFeed, .lineFeed, .carriageReturn,
    .horizontalTab, .verticalTab]

/-- The text is one part of a string and stands for the bytes. It is a code point that neither
closes the string nor begins an escape nor ends the line, or a backslash with a sign for a code
point, with the number of a byte or with the number of a code point. -/
inductive StringPart : List Char → List UInt8 → Prop
  | plain {c : Char} (hmark : c ≠ '"') (hslash : c ≠ '\\') (hline : c ≠ '\n') :
      StringPart [c] (Utf8.encode [c])
  | sign {code : CharCode} (h : code ∈ signs) :
      StringPart ['\\', code.sign] (Utf8.encode [code.meaning])
  | hexByte {digits : List Char} {b : UInt8} (hlength : digits.length = 2)
      (hdigits : ∀ d ∈ digits, CharClass.hexDigit.contains d = true)
      (hvalue : digitsValue 16 digits = b.toNat) : StringPart ('\\' :: 'x' :: digits) [b]
  | octalByte {digits : List Char} {b : UInt8} (hlength : digits.length = 3)
      (hdigits : ∀ d ∈ digits, CharClass.octalDigit.contains d = true)
      (hvalue : digitsValue 8 digits = b.toNat) : StringPart ('\\' :: digits) [b]
  | number {letter : Char} {digits : List Char} {c : Char}
      (hlength : (letter, digits.length) ∈ [('u', 4), ('U', 8)])
      (hdigits : ∀ d ∈ digits, CharClass.hexDigit.contains d = true)
      (hvalue : digitsValue 16 digits = c.toNat) :
      StringPart ('\\' :: letter :: digits) (Utf8.encode [c])

/-- Octal digits are left to the last escape rule. -/
theorem find?_of_octalDigit (h : CharClass.octalDigit.contains c = true) :
    (escapes true).find? (·.claims c) = some (.octalEscape ⟨true⟩) := by
  have hne {d : Char} (hd : CharClass.octalDigit.contains d = false) : c ≠ d := fun heq =>
    Bool.false_ne_true (hd.symm.trans (heq ▸ h))
  have hlookup : CharEscape.controls.lookup? c = none := by
    have hsigns : ∀ code ∈ CharEscape.controls.table.reverse,
        CharClass.octalDigit.contains code.sign = false := by decide
    rw [CharEscape.lookup?, Option.map_eq_none_iff, List.find?_eq_none]
    intro code hcode heq
    exact hne (hsigns code hcode) (beq_iff_eq.mp heq).symm
  have hx : (c == 'x') = false := beq_eq_false_iff_ne.mpr (hne (by decide))
  have hu : (c == 'u') = false := beq_eq_false_iff_ne.mpr (hne (by decide))
  have hU : (c == 'U') = false := beq_eq_false_iff_ne.mpr (hne (by decide))
  simp [escapes, Rule.claims, hlookup, HexEscape.twoAs, HexEscape.four,
    HexEscape.eight, hx, hu, hU, h]

/-- Parts are what the rule for strings decodes. -/
theorem StringPart.item (h : StringPart w bytes) : string.Item (escapes true) w bytes := by
  cases h with
  | plain hmark hslash hline =>
    exact .plain hmark (fun heq => hslash (Option.some.inj heq).symm) fun heq => absurd heq hline
  | @sign code hcode =>
    -- All signs but two are left to the escape rules.
    have hdecoded (hclosing : code.sign ≠ '"') (hflag : code.sign ≠ '\\')
        (hlookup : CharEscape.controls.lookup? code.sign = some code.meaning) :
        string.Item (escapes true) ['\\', code.sign] (Utf8.encode [code.meaning]) := by
      have hclaims : (Rule.charEscape .controls).claims code.sign = true := by
        rw [Rule.claims, hlookup, Option.isSome_some]
      have hfind : (escapes true).find? (·.claims code.sign) = some (.charEscape .controls) :=
        List.find?_cons_of_pos hclaims
      exact .escaped rfl (.decoded hclosing hflag hfind (.char hlookup))
    simp only [signs, List.mem_cons, List.not_mem_nil, or_false] at hcode
    rcases hcode with rfl | rfl | rfl | rfl | rfl | rfl | rfl | rfl | rfl
    · exact .escaped rfl .closing
    · exact .escaped rfl .flag
    all_goals exact hdecoded (by decide) (by decide) (by decide)
  | @hexByte digits b hlength hdigits hvalue =>
    obtain rfl : .ofNat (digitsValue 16 digits) = b := by rw [hvalue, UInt8.ofNat_toNat]
    have hfind : (escapes true).find? (·.claims 'x') = some (.hexEscape (.twoAs true)) := rfl
    exact .escaped rfl (.decoded (by decide) (by decide) hfind (.hexByte rfl hlength hdigits))
  | @octalByte digits b hlength hdigits hvalue =>
    have hle : digitsValue 8 digits ≤ 255 := hvalue ▸ Nat.le_of_lt_succ b.toNat_lt
    obtain rfl : .ofNat (digitsValue 8 digits) = b := by rw [hvalue, UInt8.ofNat_toNat]
    obtain ⟨d, ds, rfl⟩ := List.exists_cons_of_length_pos (by omega : 0 < digits.length)
    have hd := hdigits d List.mem_cons_self
    have hne {x : Char} (hx : CharClass.octalDigit.contains x = false) : d ≠ x := fun heq =>
      Bool.false_ne_true (hx.symm.trans (heq ▸ hd))
    exact .escaped rfl (.decoded (hne (by decide)) (hne (by decide)) (find?_of_octalDigit hd)
      (.octal hlength hdigits hle))
  | @number letter digits c hlength hdigits hvalue =>
    have hc : Utf8.scalar? (digitsValue 16 digits) = some c := hvalue ▸ Utf8.scalar?_toNat c
    simp only [List.mem_cons, Prod.mk.injEq, List.not_mem_nil, or_false] at hlength
    rcases hlength with ⟨rfl, hlength⟩ | ⟨rfl, hlength⟩
    · have hfind : (escapes true).find? (·.claims 'u') = some (.hexEscape .four) := rfl
      exact .escaped rfl (.decoded (by decide) (by decide) hfind (.hex rfl hlength hdigits hc))
    · have hfind : (escapes true).find? (·.claims 'U') = some (.hexEscape .eight) := rfl
      exact .escaped rfl (.decoded (by decide) (by decide) hfind (.hex rfl hlength hdigits hc))

/-! ### The token of a string -/

/-- Parts between quotation marks are read with their bytes as value. -/
theorem exists_read_of_parts {parts : List (List Char × List UInt8)} (flags : Flags)
    (hs : s.IsFresh) (hparts : ∀ p ∈ parts, StringPart p.1 p.2)
    (hup : s.upcoming.chars = '"' :: (parts.flatMap Prod.fst ++ '"' :: rest)) :
    ∃ t, lexicon.read flags s = .ok t ∧
      s.Consumes ('"' :: (parts.flatMap Prod.fst ++ ['"'])) t ∧
      t.draft.value = parts.flatMap Prod.snd ∧ t.draft.kind = stringKind ∧
      t.draft.diagnostics = #[] := by
  obtain ⟨u, hrestores, heval⟩ := Rule.exists_evalFirst_of_misses (rules.drop 7) hs
    (current?_of_upcoming hup) exists_miss_of_mark
  have hup' : u.upcoming.chars = '"' :: (parts.flatMap Prod.fst ++ '"' :: rest) :=
    (congrArg View.upcoming hrestores.view).trans hup
  obtain ⟨t, ht, hconsumes, hdraft⟩ := Quotation.exists_eval_of_items (q := string) flags rfl
    (by decide) (by decide) (isEscape_escapes true) rfl (fun p hp => (hparts p hp).item)
    (hrestores.isFresh hs) hup'
  refine ⟨t, ?_, hrestores.consumes hconsumes, hdraft⟩
  have hmatched : Rule.evalFirst flags lexicon.rules s = .ok (true, t) := by
    refine heval.trans ?_
    change Rule.evalFirst flags (.quotation string (escapes true) :: _) u = _
    rw [Rule.evalFirst_cons, ht]
    rfl
  rw [Lexicon.read, hmatched]
  rfl

/-- Let a token begin with a quotation mark, parts of a string and a second quotation mark. The next
token is the string: its literal is the text from mark to mark, and the scanner goes on behind it.
If the bytes of the parts, one after another, are the encoding of a text, then this text is the
value of the token, which has the kind of strings and no diagnostics. Otherwise the token is
illegal, its value is the lossy decoding of the bytes, and its one diagnostic, which stands where
the token begins, says that the value is not well formed. -/
theorem string_assembles_bytes (flags : Flags) (s : Scanner) (hs : s.IsFresh)
    (parts : List (List Char × List UInt8)) (hparts : ∀ p ∈ parts, StringPart p.1 p.2)
    (rest : List Char)
    (hup : s.upcoming.chars = '"' :: (parts.flatMap Prod.fst ++ '"' :: rest)) :
    ∃ token t, lexicon.next flags s = .ok (token, t) ∧ t.upcoming.chars = rest ∧
      token.literal = String.ofList ('"' :: (parts.flatMap Prod.fst ++ ['"'])) ∧
      token.position = s.position ∧
      (∀ text, Utf8.encode text = parts.flatMap Prod.snd →
        token.kind = stringKind ∧ token.diagnostics = [] ∧ token.value = String.ofList text) ∧
      ((¬∃ text, Utf8.encode text = parts.flatMap Prod.snd) →
        token.kind = Kind.illegal ∧
          token.value = String.ofList (Utf8.decodeLossy (parts.flatMap Prod.snd)) ∧
          ∃ d, token.diagnostics = [d] ∧ d.position = token.position ∧
            d.message = "invalid UTF-8 in value " ++ quote token.value) := by
  obtain ⟨t, hread, hconsumes, hvalue, hkind, hdiagnostics⟩ :=
    exists_read_of_parts flags hs hparts hup
  have hc := current?_of_upcoming hup
  have hgap : s.whileIn lexicon.discards .discard = s :=
    whileIn_of_not_isIn _ (by rw [isIn, hc]; decide)
  have hend : s.atEnd = false := by rw [atEnd, hc, Option.isNone_some]
  have hnext : lexicon.next flags s = .ok (Lexicon.accept t.checkValue.assembled t.renew) := by
    have hread' : lexicon.read flags (s.whileIn lexicon.discards .discard) = .ok t := by
      rwa [hgap]
    rcases kind_assembled (s := t) (hkind ▸ by decide) with hstring | hillegal
    · exact next_of_kind_eq hs (by rwa [hgap]) hread' (hstring.trans hkind) (by decide) (by decide)
    · exact next_of_kind_eq hs (by rwa [hgap]) hread' hillegal (by decide) (by decide)
  have hrest : t.upcoming.chars = rest := by
    have hsplit := hconsumes.upcoming
    rw [hup, List.cons_append, List.append_assoc] at hsplit
    exact (List.cons.inj (List.append_cancel_left (List.cons.inj hsplit).2)).2.symm
  obtain ⟨-, -, -, -, hliteral, hposition⟩ := hconsumes.exists_emit hs (List.cons_ne_nil _ _)
  refine ⟨_, _, hnext, ?_, hliteral, hposition, fun text htext => ?_, fun hnone => ?_⟩
  · change (Lexicon.accept _ t.renew).2.upcoming.chars = rest
    rw [Lexicon.accept_eq, renew_eq]
    exact hrest
  · obtain ⟨hassembled, hreports, hvalue'⟩ := assembled_of_encode (htext.trans hvalue.symm)
    refine ⟨hassembled.trans ?_, hreports.trans (by rw [hdiagnostics]), hvalue'⟩
    rw [emittedKind, hkind]
    rfl
  · rw [← hvalue] at hnone ⊢
    obtain ⟨hassembled, hreports, hvalue'⟩ := assembled_of_malformed hnone
    refine ⟨hassembled, hvalue', _, hreports.trans (by rw [hdiagnostics]; rfl), ?_, ?_⟩
    · exact (hconsumes.start.trans hs.2).trans hposition.symm
    · exact congrArg (fun v => "invalid UTF-8 in value " ++ quote v) hvalue'.symm

/-- A source with a string in which three escapes, one of them in octal digits, supply the bytes of
one code point. -/
def euroSample : ByteSource :=
  { reads := [.bytes [0x22, 0x61, 0x5C, 0x78, 0x65, 0x32, 0x5C, 0x32, 0x30, 0x32, 0x5C, 0x78, 0x61,
      0x63, 0x22]] }

/-- A source with a string that has the first of these bytes only. -/
def cutSample : ByteSource :=
  { reads := [.bytes [0x22, 0x5C, 0x78, 0x65, 0x32, 0x22]] }

/-- The bytes of three escapes make one code point, and the first of them alone is malformed. -/
theorem string_assembles_bytes_euroSample :
    (ofSource "f" euroSample).IsFresh ∧ (ofSource "f" cutSample).IsFresh ∧
      StringPart ['\\', 'x', 'e', '2'] [0xE2] ∧ StringPart ['\\', '2', '0', '2'] [0x82] ∧
      (∃ token t, lexicon.next .off (ofSource "f" euroSample) = .ok (token, t) ∧
        token.kind = stringKind ∧ token.diagnostics = [] ∧ token.value = "a€") ∧
      ∃ token t, lexicon.next .off (ofSource "f" cutSample) = .ok (token, t) ∧
        token.kind = Kind.illegal ∧ token.value = "\uFFFD" := by
  have hfresh := isFresh_ofSource "f" euroSample
  have hfresh' := isFresh_ofSource "f" cutSample
  have hletter : StringPart ['a'] [0x61] := .plain (by decide) (by decide) (by decide)
  have hfirst : StringPart ['\\', 'x', 'e', '2'] [0xE2] :=
    .hexByte rfl (List.all_eq_true.mp rfl) rfl
  have hsecond : StringPart ['\\', '2', '0', '2'] [0x82] :=
    .octalByte rfl (List.all_eq_true.mp rfl) rfl
  have hthird : StringPart ['\\', 'x', 'a', 'c'] [0xAC] :=
    .hexByte rfl (List.all_eq_true.mp rfl) rfl
  refine ⟨hfresh, hfresh', hfirst, hsecond, ?_, ?_⟩
  · obtain ⟨token, t, hnext, -, -, -, htext, -⟩ := string_assembles_bytes .off _ hfresh
      [(_, _), (_, _), (_, _), (_, _)]
      (by simpa only [List.forall_mem_cons] using
        ⟨hletter, hfirst, hsecond, hthird, List.forall_mem_nil _⟩) [] rfl
    exact ⟨token, t, hnext, htext ['a', '€'] rfl⟩
  · obtain ⟨token, t, hnext, -, -, -, -, hmalformed⟩ := string_assembles_bytes .off _ hfresh'
      [(_, _)] (List.forall_mem_singleton.mpr hfirst) [] rfl
    have hnone : ¬∃ text, Utf8.encode text = [0xE2] := by
      rintro ⟨text, htext⟩
      cases Utf8.decode?_eq_some_iff.mpr htext
    obtain ⟨hkind, hvalue, -⟩ := hmalformed hnone
    exact ⟨token, t, hnext, hkind, hvalue⟩

end Language.Go

end Lexing
