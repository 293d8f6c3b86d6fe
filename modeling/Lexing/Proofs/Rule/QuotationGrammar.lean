import Lexing.Proofs.Rule.Decoding
import Lexing.Proofs.Rule.Replay

/-!
# The grammar of quoted texts

Between its delimiters a quoted text is made of items: code points that stand for themselves, and
the escape flag followed by the closing delimiter, by the flag, or by what an escape rule decodes.
Of several escape rules the first one that claims the code point after the flag decides. A quoted
text is read without a report if, and only if, it is closed and made of items, and then it stands
for the bytes of its items.

## Main definitions

* `Scanner.Renders` : a text was consumed and stands for bytes.
* `Rule.claims`, `Rule.Denotes` : which code points an escape rule decodes, and what it makes of
  them.
* `Quotation.Item`, `Quotation.IsContent` : the grammar.

## Main results

* `Rule.Denotes.exists_eval`, `Rule.exists_denotes` : escapes that are decoded without a report.
* `Quotation.exists_body_of_items`, `Quotation.exists_items_of_body` : both directions.
* `Quotation.reads_grammar` : quoted texts.
-/

namespace Lexing

open Scanner

variable {s t u : Scanner} {w v rest : List Char} {bytes bytes' : List UInt8} {c : Char}

/-! ### Text that stands for bytes -/

/-- The text `w` was consumed within the draft and stands for the bytes. -/
structure Scanner.Renders (s : Scanner) (w : List Char) (bytes : List UInt8) (t : Scanner) :
    Prop where
  consumes : s.Consumes w t
  value : t.draft.value = s.draft.value ++ bytes
  kind : t.draft.kind = s.draft.kind
  diagnostics : t.draft.diagnostics = s.draft.diagnostics

theorem Scanner.Decodes.renders (h : s.Decodes w v t) : s.Renders w (Utf8.encode v) t :=
  ⟨h.consumes, h.value, h.kind, h.diagnostics⟩

namespace Scanner.Renders

theorem trans (h₁ : s.Renders w bytes t) (h₂ : t.Renders v bytes' u) :
    s.Renders (w ++ v) (bytes ++ bytes') u where
  consumes := h₁.consumes.trans h₂.consumes
  value := by rw [h₂.value, h₁.value, List.append_assoc]
  kind := h₂.kind.trans h₁.kind
  diagnostics := h₂.diagnostics.trans h₁.diagnostics

/-- A code point that is skipped stands for nothing. -/
theorem skip_trans (hc : s.current? = some c) (h : s.skip.Renders w bytes t) :
    s.Renders (c :: w) bytes t :=
  (decodes_skip hc).renders.trans h

/-- Digits that are skipped stand for the byte that is added. -/
theorem pushByte (h : s.Renders w bytes t) (b : UInt8) :
    s.Renders w (bytes ++ [b]) (t.pushByte b) where
  consumes := h.consumes.pushByte b
  value := by rw [Scanner.pushByte, Draft.value_pushByte, h.value, List.append_assoc]
  kind := h.kind
  diagnostics := h.diagnostics

theorem pushChar (h : s.Renders w bytes t) (c : Char) :
    s.Renders w (bytes ++ Utf8.encode [c]) (t.pushChar c) := by
  simpa using h.trans (decodes_pushChar t c).renders

theorem upcoming_eq (h : s.Renders w bytes t) (hup : s.upcoming.chars = w ++ rest) :
    t.upcoming.chars = rest := by
  rw [h.consumes.upcoming] at hup
  exact List.append_cancel_left hup

end Scanner.Renders

/-! ### Digits -/

variable {k : CharClass} {n : Nat} {digits : List Char}

/-- Digits of a class that are upcoming in the number expected are found. -/
theorem Scanner.upcomingDigits_of_forall (hlength : digits.length = n)
    (hdigits : ∀ d ∈ digits, k.contains d = true) (hup : s.upcoming.chars = digits ++ rest) :
    s.upcomingDigits n k = digits := by
  rw [upcomingDigits, hup, ← hlength, List.take_left, List.takeWhile_eq_self_iff.mpr hdigits]

/-- Digits that are found in the number expected are upcoming. -/
theorem Scanner.upcoming_of_upcomingDigits (h : (s.upcomingDigits n k).length = n) :
    (∀ d ∈ s.upcomingDigits n k, k.contains d = true) ∧
      s.upcoming.chars = s.upcomingDigits n k ++ s.upcoming.chars.drop n := by
  refine ⟨fun d hd => List.mem_takeWhile_imp hd, ?_⟩
  have hle := le_length_of_upcomingDigits h
  have hall : s.upcomingDigits n k = s.upcoming.chars.take n :=
    (List.takeWhile_prefix _).eq_of_length (by rw [← upcomingDigits, h, List.length_take]; omega)
  rw [hall, List.take_append_drop]

/-- Hexadecimal digits about which nothing is reported denote a byte or a code point. -/
theorem HexEscape.value_of_clean {e : HexEscape}
    (h : (e.decodeDigits s).draft.diagnostics = #[]) :
    (s.upcomingDigits e.width .hexDigit).length = e.width ∧ (e.asByte = true ∨
      ∃ c, Utf8.scalar? (digitsValue 16 (s.upcomingDigits e.width .hexDigit)) = some c) := by
  refine ⟨(decodeDigits_of_clean h).1, ?_⟩
  cases hbyte : e.asByte with
  | true => exact .inl rfl
  | false =>
    cases hc : Utf8.scalar? (digitsValue 16 (s.upcomingDigits e.width .hexDigit)) with
    | some c => exact .inr ⟨c, rfl⟩
    | none =>
      rw [decodeDigits, if_neg (not_not.mpr (decodeDigits_of_clean h).1), hbyte] at h
      simp only [hc] at h
      exact absurd h Array.push_ne_empty

/-- Octal digits about which nothing is reported denote a number up to 255. -/
theorem OctalEscape.value_of_clean {e : OctalEscape} (h : e.attempt s = some t)
    (hclean : t.draft.diagnostics = #[]) :
    digitsValue 8 (s.upcomingDigits 3 .octalDigit) ≤ 255 := by
  refine Nat.le_of_not_lt fun hlt => ?_
  rw [attempt] at h
  split at h
  · cases h
  · rw [if_pos (by simp [hlt])] at h
    obtain rfl := Option.some.inj h
    exact absurd hclean Array.push_ne_empty

/-! ### Escapes -/

namespace Rule

/-- Whether an escape rule decides about escapes that begin with the code point. -/
def claims : Rule → Char → Bool
  | .charEscape e, c => (e.lookup? c).isSome
  | .hexEscape e, c => c == e.flag
  | .octalEscape _, c => CharClass.octalDigit.contains c
  | _, _ => false

/-- The text is an escape that the rule decodes to the bytes: a code point of its table, its letter
and as many hexadecimal digits as it expects, or three octal digits of a number up to 255. Digits
denote a code point, or a byte where the rule says so. -/
inductive Denotes : Rule → List Char → List UInt8 → Prop
  | char {e : CharEscape} {sign c : Char} (h : e.lookup? sign = some c) :
      Denotes (.charEscape e) [sign] (Utf8.encode [c])
  | hex {e : HexEscape} {digits : List Char} {c : Char} (hbyte : e.asByte = false)
      (hwidth : digits.length = e.width)
      (hdigits : ∀ d ∈ digits, CharClass.hexDigit.contains d = true)
      (hc : Utf8.scalar? (digitsValue 16 digits) = some c) :
      Denotes (.hexEscape e) (e.flag :: digits) (Utf8.encode [c])
  | hexByte {e : HexEscape} {digits : List Char} (hbyte : e.asByte = true)
      (hwidth : digits.length = e.width)
      (hdigits : ∀ d ∈ digits, CharClass.hexDigit.contains d = true) :
      Denotes (.hexEscape e) (e.flag :: digits) [.ofNat (digitsValue 16 digits)]
  | octal {e : OctalEscape} {digits : List Char} (hlength : digits.length = 3)
      (hdigits : ∀ d ∈ digits, CharClass.octalDigit.contains d = true)
      (hle : digitsValue 8 digits ≤ 255) :
      Denotes (.octalEscape e) digits (if e.asByte then [.ofNat (digitsValue 8 digits)]
        else Utf8.encode [.ofNat (digitsValue 8 digits)])

variable {flags : Flags} {r : Rule}

/-- A rule claims the escapes that it decodes. -/
theorem Denotes.exists_claimed (h : r.Denotes w bytes) :
    ∃ c v, w = c :: v ∧ r.claims c = true := by
  cases h with
  | char h => exact ⟨_, _, rfl, by rw [claims, h, Option.isSome_some]⟩
  | hex => exact ⟨_, _, rfl, by simp [claims]⟩
  | hexByte => exact ⟨_, _, rfl, by simp [claims]⟩
  | octal hlength hdigits _ =>
    obtain ⟨d, w, rfl⟩ := List.exists_cons_of_length_pos (by omega : 0 < w.length)
    exact ⟨d, w, rfl, hdigits d List.mem_cons_self⟩

/-- An escape is decoded where it stands. -/
theorem Denotes.exists_eval (h : r.Denotes w bytes) (flags : Flags)
    (hup : s.upcoming.chars = w ++ rest) :
    ∃ t, r.eval flags s = .ok (true, t) ∧ s.Renders w bytes t := by
  cases h with
  | char h =>
    obtain ⟨t, ht, hdecodes⟩ := CharEscape.exists_attempt h hup
    exact ⟨t, by rw [eval_charEscape, ht]; rfl, hdecodes.renders⟩
  | hex hbyte hwidth hdigits hc =>
    obtain ⟨t, ht, hdecodes⟩ := HexEscape.exists_attempt hbyte hwidth hdigits hc hup
    exact ⟨t, by rw [eval_hexEscape, ht]; rfl, hdecodes.renders⟩
  | @hexByte e digits hbyte hwidth hdigits =>
    have hc := current?_of_upcoming hup
    have hrest := (decodes_skip hc).upcoming_eq hup
    have hskip := hwidth ▸ (decodes_times_skip hrest).renders
    refine ⟨_, ?_, (hskip.pushByte _).skip_trans hc⟩
    rw [eval_hexEscape, HexEscape.attempt, if_pos hc, HexEscape.decodeDigits,
      upcomingDigits_of_forall hwidth hdigits hrest, if_neg (not_not.mpr hwidth), if_pos hbyte]
    rfl
  | @octal e _ hlength hdigits hle =>
    have hskip := hlength ▸ (decodes_times_skip hup).renders
    have hfound := upcomingDigits_of_forall hlength hdigits hup
    have hin : s.isIn .octalDigit = true := by
      obtain ⟨d, v, rfl⟩ := List.exists_cons_of_length_pos (by omega : 0 < w.length)
      rw [isIn, current?_of_upcoming hup]
      exact hdigits d List.mem_cons_self
    rw [eval_octalEscape, OctalEscape.attempt, hin, hfound]
    simp only [Bool.not_true, Bool.false_eq_true, if_false, hlength, ne_eq, not_true_eq_false,
      decide_false, Bool.false_or, Nat.not_lt.mpr hle]
    split
    · exact ⟨_, rfl, hskip.pushByte _⟩
    · exact ⟨_, rfl, hskip.pushChar _⟩

/-- An escape rule matches where it claims the current code point. Otherwise nothing is changed. -/
theorem IsEscape.eval_cases (hr : r.IsEscape) (flags : Flags) (s : Scanner) :
    (∃ c t, s.current? = some c ∧ r.claims c = true ∧ r.eval flags s = .ok (true, t)) ∨
      (∀ c, s.current? = some c → r.claims c = false) ∧ r.eval flags s = .ok (false, s) := by
  rcases hr with ⟨e, rfl⟩ | ⟨e, rfl⟩ | ⟨e, rfl⟩
  · rw [eval_charEscape, CharEscape.attempt]
    cases hc : s.current? with
    | none => exact .inr ⟨fun c h => absurd h.symm (Option.some_ne_none c), rfl⟩
    | some c =>
      cases hd : e.lookup? c with
      | none =>
        rw [Option.bind_some, hd]
        exact .inr ⟨by rintro _ ⟨⟩; rw [claims, hd]; rfl, rfl⟩
      | some d =>
        rw [Option.bind_some, hd]
        exact .inl ⟨c, _, rfl, by rw [claims, hd]; rfl, rfl⟩
  · rw [eval_hexEscape, HexEscape.attempt]
    split
    · rename_i hflag
      exact .inl ⟨e.flag, _, hflag, by simp [claims], rfl⟩
    · rename_i hflag
      refine .inr ⟨fun c hc => ?_, rfl⟩
      rw [claims, beq_eq_false_iff_ne]
      exact fun heq => hflag (heq ▸ hc)
  · rw [eval_octalEscape]
    cases ht : e.attempt s with
    | none =>
      rw [OctalEscape.attempt_eq_none_iff] at ht
      refine .inr ⟨fun c hc => ?_, rfl⟩
      rwa [isIn, hc] at ht
    | some t =>
      have hin : s.isIn .octalDigit = true := by
        by_contra hout
        rw [OctalEscape.attempt_eq_none_iff.mpr (Bool.eq_false_iff.mpr hout)] at ht
        cases ht
      obtain ⟨c, hc, hdigit⟩ := exists_of_isIn hin
      exact .inl ⟨c, t, hc, hdigit, rfl⟩

/-- What an escape rule decodes without a report is an escape. -/
theorem exists_denotes (hr : r.IsEscape) (ht : r.eval flags s = .ok (true, t))
    (hclean : t.draft.diagnostics = #[]) : ∃ w bytes, r.Denotes w bytes ∧ s.Renders w bytes t := by
  -- An escape that is upcoming is what is decoded.
  suffices h : ∃ w bytes rest, r.Denotes w bytes ∧ s.upcoming.chars = w ++ rest by
    obtain ⟨w, bytes, rest, hw, hup⟩ := h
    obtain ⟨t', ht', hrenders⟩ := hw.exists_eval flags hup
    obtain ⟨-, rfl⟩ := Prod.mk.inj (Except.ok.inj (ht.symm.trans ht'))
    exact ⟨w, bytes, hw, hrenders⟩
  rcases hr with ⟨e, rfl⟩ | ⟨e, rfl⟩ | ⟨e, rfl⟩
  · obtain ⟨d, hd, -⟩ := Option.map_eq_some_iff.mp (eq_some_of_settle ht)
    obtain ⟨c, hc, hlookup⟩ := Option.bind_eq_some_iff.mp hd
    exact ⟨[c], _, _, .char hlookup, upcoming_of_current? hc⟩
  · have hattempt := eq_some_of_settle ht
    rw [HexEscape.attempt] at hattempt
    split at hattempt
    · rename_i hflag
      obtain rfl := Option.some.inj hattempt
      obtain ⟨hlength, hvalue⟩ := HexEscape.value_of_clean hclean
      obtain ⟨hdigits, hrest⟩ := upcoming_of_upcomingDigits hlength
      have hup : s.upcoming.chars = e.flag :: s.skip.upcoming.chars :=
        (decodes_skip hflag).consumes.upcoming
      rw [hrest] at hup
      cases hbyte : e.asByte with
      | true => exact ⟨_, _, _, .hexByte hbyte hlength hdigits, hup⟩
      | false =>
        obtain ⟨c, hc⟩ := hvalue.resolve_left (Bool.eq_false_iff.mp hbyte)
        exact ⟨_, _, _, .hex hbyte hlength hdigits hc, hup⟩
    · cases hattempt
  · have hattempt := eq_some_of_settle ht
    obtain ⟨hlength, -⟩ := OctalEscape.attempt_of_clean hattempt hclean
    obtain ⟨hdigits, hup⟩ := upcoming_of_upcomingDigits hlength
    exact ⟨_, _, _, .octal hlength hdigits (OctalEscape.value_of_clean hattempt hclean), hup⟩

/-! ### The first rule that claims a code point -/

variable {escapes : List Rule}

/-- The first escape rule that claims the current code point decides. -/
theorem evalFirst_of_find? (hescapes : ∀ r ∈ escapes, r.IsEscape) (hc : s.current? = some c)
    (hr : escapes.find? (·.claims c) = some r) (ht : r.eval flags s = .ok (true, t)) :
    evalFirst flags escapes s = .ok (true, t) := by
  induction escapes with
  | nil => cases hr
  | cons r' escapes ih =>
    obtain ⟨hr', hescapes⟩ := List.forall_mem_cons.mp hescapes
    rw [evalFirst_cons]
    rcases hr'.eval_cases flags s with ⟨d, u, hd, hclaims, -⟩ | ⟨hclaims, hmiss⟩
    · obtain rfl := Option.some.inj (hd.symm.trans hc)
      have hfirst : (r' :: escapes).find? (·.claims d) = some r' := List.find?_cons_of_pos hclaims
      obtain rfl := Option.some.inj (hr.symm.trans hfirst)
      rw [ht]
      rfl
    · rw [List.find?_cons_of_neg (by simp [hclaims c hc])] at hr
      rw [hmiss]
      exact ih hescapes hr

/-- If an escape rule matches, it is the first that claims the current code point. -/
theorem exists_of_evalFirst (hescapes : ∀ r ∈ escapes, r.IsEscape)
    (ht : evalFirst flags escapes s = .ok (true, t)) :
    ∃ c r, s.current? = some c ∧ escapes.find? (·.claims c) = some r ∧
      r.eval flags s = .ok (true, t) := by
  induction escapes with
  | nil => cases ht
  | cons r escapes ih =>
    obtain ⟨hr, hescapes⟩ := List.forall_mem_cons.mp hescapes
    rw [evalFirst_cons] at ht
    rcases hr.eval_cases flags s with ⟨c, u, hc, hclaims, hu⟩ | ⟨hclaims, hmiss⟩
    · rw [hu] at ht
      obtain ⟨-, rfl⟩ := Prod.mk.inj (Except.ok.inj ht)
      exact ⟨c, r, hc, List.find?_cons_of_pos hclaims, hu⟩
    · rw [hmiss] at ht
      obtain ⟨c, r', hc, hr', ht⟩ := ih hescapes ht
      exact ⟨c, r', hc, by rwa [List.find?_cons_of_neg (by simp [hclaims c hc])], ht⟩

end Rule

/-! ### Items -/

namespace Quotation

variable {q : Quotation} {escapes : List Rule} {flags : Flags} {flag : Char}

/-- The text may stand after the escape flag, where it stands for the bytes. The closing delimiter
and the flag stand for themselves, whatever the escape rules say. -/
inductive Escaped (q : Quotation) (escapes : List Rule) (flag : Char) :
    List Char → List UInt8 → Prop
  | closing : Escaped q escapes flag [q.closing] (Utf8.encode [q.closing])
  | flag : Escaped q escapes flag [flag] (Utf8.encode [flag])
  | decoded {c : Char} {w : List Char} {r : Rule} {bytes : List UInt8} (hclosing : c ≠ q.closing)
      (hflag : c ≠ flag) (hr : escapes.find? (·.claims c) = some r)
      (hw : r.Denotes (c :: w) bytes) : Escaped q escapes flag (c :: w) bytes

/-- The text is one item of a quoted text and stands for the bytes: a code point that neither closes
the text nor begins an escape nor ends the line that the text has to stay on, or an escape. -/
inductive Item (q : Quotation) (escapes : List Rule) : List Char → List UInt8 → Prop
  | plain {c : Char} (hclosing : c ≠ q.closing) (hescape : q.escape ≠ some c)
      (hline : c = '\n' → q.multiline = true) : Item q escapes [c] (Utf8.encode [c])
  | escaped {flag : Char} {w : List Char} {bytes : List UInt8} (hflag : q.escape = some flag)
      (hw : q.Escaped escapes flag w bytes) : Item q escapes (flag :: w) bytes

theorem isEscape_some_iff : q.isEscape (some c) = true ↔ q.escape = some c := by
  rw [isEscape, Option.isSome_some, Bool.true_and, beq_iff_eq, eq_comm]

theorem endsLine_eq_true_iff : q.endsLine c = true ↔ c = '\n' ∧ q.multiline = false := by
  simp [endsLine]

/-- What may stand after an escape flag is decoded there. -/
theorem Escaped.exists_unescape (flags : Flags) (hescapes : ∀ r ∈ escapes, r.IsEscape)
    (h : q.Escaped escapes flag w bytes) (hflag : q.escape = some flag)
    (hup : s.upcoming.chars = w ++ rest) :
    ∃ t, q.unescape (Rule.evalFirst flags escapes) flag s = .ok t ∧ s.Renders w bytes t := by
  cases h with
  | closing =>
    have hc := current?_of_upcoming hup
    exact ⟨s.keep, unescape_of_plain (.inl hc), (decodes_keep hc).renders⟩
  | flag =>
    have hc := current?_of_upcoming hup
    exact ⟨s.keep, unescape_of_plain (.inr (hc ▸ isEscape_some_iff.mpr hflag)),
      (decodes_keep hc).renders⟩
  | @decoded c w r _ hclosing hne hr hw =>
    have hc := current?_of_upcoming hup
    obtain ⟨t, ht, hrenders⟩ := hw.exists_eval flags hup
    refine ⟨t, unescape_of_decoded ?_ ?_ (Rule.evalFirst_of_find? hescapes hc hr ht), hrenders⟩
    · rw [hc]
      exact fun heq => hclosing (Option.some.inj heq)
    · rw [hc, Bool.eq_false_iff, ne_eq, isEscape_some_iff, hflag]
      exact fun heq => hne (Option.some.inj heq).symm

/-- What is decoded after an escape flag without a report may stand there. -/
theorem exists_escaped (hescapes : ∀ r ∈ escapes, r.IsEscape) (hflag : q.escape = some flag)
    (ht : q.unescape (Rule.evalFirst flags escapes) flag s = .ok t)
    (hclean : t.draft.diagnostics = #[]) :
    ∃ w bytes, q.Escaped escapes flag w bytes ∧ s.Renders w bytes t := by
  rw [unescape] at ht
  split at ht
  · rename_i hplain
    obtain rfl := Except.ok.inj ht
    rw [Bool.or_eq_true, decide_eq_true_eq] at hplain
    rcases hplain with hc | hescape
    · exact ⟨_, _, .closing, (decodes_keep hc).renders⟩
    · obtain ⟨c, hc⟩ : ∃ c, s.current? = some c := by
        rw [isEscape, Bool.and_eq_true] at hescape
        exact Option.isSome_iff_exists.mp hescape.1
      rw [hc, isEscape_some_iff, hflag] at hescape
      obtain rfl := Option.some.inj hescape
      exact ⟨_, _, .flag, (decodes_keep hc).renders⟩
  · rename_i hplain
    obtain ⟨⟨decoded, a⟩, ha, ht⟩ := exists_of_bind_eq_ok ht
    cases decoded with
    | false =>
      obtain rfl := Except.ok.inj ht
      exact absurd hclean Array.push_ne_empty
    | true =>
      obtain rfl := Except.ok.inj ht
      obtain ⟨c, r, hc, hr, heval⟩ := Rule.exists_of_evalFirst hescapes ha
      obtain ⟨w, bytes, hw, hrenders⟩ :=
        Rule.exists_denotes (hescapes r (List.mem_of_find?_eq_some hr)) heval hclean
      obtain ⟨d, v, rfl, -⟩ := hw.exists_claimed
      obtain rfl : c = d := by
        rw [current?_of_upcoming hrenders.consumes.upcoming] at hc
        exact (Option.some.inj hc).symm
      rw [hc, Bool.or_eq_true, decide_eq_true_eq, isEscape_some_iff, not_or, hflag] at hplain
      refine ⟨_, _, .decoded (fun heq => hplain.1 (congrArg some heq))
        (fun heq => hplain.2 (congrArg some heq.symm)) hr hw, hrenders⟩

/-! ### Bodies -/

/-- The text is made of the items up to the closing delimiter, and there are not more than are
allowed. Each item goes with the bytes that it stands for. -/
structure IsContent (q : Quotation) (escapes : List Rule) (items : List (List Char × List UInt8))
    (text rest : List Char) : Prop where
  text_eq : text = items.flatMap Prod.fst ++ q.closing :: rest
  length_le : ∀ m ∈ q.maxLength, items.length ≤ m
  item : ∀ i ∈ items, q.Item escapes i.1 i.2

variable {items : List (List Char × List UInt8)} {length : Nat}

/-- An item is passed as a whole. -/
theorem Item.exists_body (flags : Flags) (hq : q.nested = false)
    (hclosing : q.escape ≠ some q.closing) (hline : q.escape ≠ some '\n')
    (hescapes : ∀ r ∈ escapes, r.IsEscape)
    (h : q.Item escapes w bytes) (hs : s.draft.diagnostics = #[])
    (hmax : q.maxLength ≠ some length) (hup : s.upcoming.chars = w ++ rest) (bound : Nat) :
    ∃ t, q.body (Rule.evalFirst flags escapes) (bound + 1) 0 length s =
        q.body (Rule.evalFirst flags escapes) bound 0 (length + 1) t ∧ s.Renders w bytes t := by
  cases h with
  | @plain c hne hescape hbreak =>
    have hc := current?_of_upcoming hup
    have hdepth : q.depthAfter 0 c = 0 := by simp [depthAfter, hq]
    refine ⟨s.keep, ?_, (decodes_keep hc).renders⟩
    rw [body_of_keep hc (fun h => hne h.1) ?_ hmax (mt isEscape_some_iff.mp hescape), hdepth]
    rw [endsLine_eq_true_iff]
    rintro ⟨heq, hsingle⟩
    exact Bool.false_ne_true (hsingle.symm.trans (hbreak heq))
  | @escaped flag w _ hflag hw =>
    have hc := current?_of_upcoming hup
    have hrest := (decodes_skip hc).upcoming_eq hup
    obtain ⟨t, ht, hrenders⟩ := hw.exists_unescape flags hescapes hflag hrest
    have hitem := hrenders.skip_trans hc
    refine ⟨t, body_of_escape hc ?_ ?_ hmax (isEscape_some_iff.mpr hflag) ht
      (hitem.diagnostics.trans hs), hitem⟩
    · exact fun h => hclosing (h.1 ▸ hflag)
    · rw [endsLine_eq_true_iff]
      exact fun h => hline (h.1 ▸ hflag)

/-- Items up to the closing delimiter are read without a report. -/
theorem exists_body_of_items (hq : q.nested = false) (hclosing : q.escape ≠ some q.closing)
    (hline : q.escape ≠ some '\n') (hescapes : ∀ r ∈ escapes, r.IsEscape)
    (hitems : ∀ i ∈ items, q.Item escapes i.1 i.2) (hs : s.draft.diagnostics = #[])
    (hmax : ∀ m ∈ q.maxLength, length + items.length ≤ m) {bound : Nat}
    (hbound : items.length < bound)
    (hup : s.upcoming.chars = items.flatMap Prod.fst ++ q.closing :: rest) :
    ∃ t, q.body (Rule.evalFirst flags escapes) bound 0 length s = .ok t ∧
      s.Renders (items.flatMap Prod.fst ++ [q.closing]) (items.flatMap Prod.snd) t := by
  induction items generalizing s bound length with
  | nil =>
    obtain ⟨bound, rfl⟩ := Nat.exists_eq_add_one.mpr hbound
    have hc := current?_of_upcoming hup
    refine ⟨s.skip, ?_, (decodes_skip hc).renders⟩
    rw [body, hc]
    exact if_pos ⟨rfl, rfl⟩
  | cons i items ih =>
    obtain ⟨bound, rfl⟩ := Nat.exists_eq_add_one.mpr (Nat.lt_of_le_of_lt (Nat.zero_le _) hbound)
    obtain ⟨hi, hitems⟩ := List.forall_mem_cons.mp hitems
    rw [List.length_cons] at hmax hbound
    rw [List.flatMap_cons, List.append_assoc] at hup
    have hroom : q.maxLength ≠ some length := by
      intro heq
      have hle := hmax length heq
      omega
    have hmax' : ∀ m ∈ q.maxLength, length + 1 + items.length ≤ m := by
      intro m hm
      have hle := hmax m hm
      omega
    obtain ⟨t, ht, hrenders⟩ := hi.exists_body flags hq hclosing hline hescapes hs hroom hup bound
    obtain ⟨u, hu, hrest⟩ := ih hitems (hrenders.diagnostics.trans hs) hmax'
      (Nat.lt_of_succ_lt_succ hbound) (hrenders.upcoming_eq hup)
    refine ⟨u, ht.trans hu, ?_⟩
    rw [List.flatMap_cons, List.flatMap_cons, List.append_assoc]
    exact hrenders.trans hrest

/-- What is read without a report is made of items up to the closing delimiter. -/
theorem exists_items_of_body (hq : q.nested = false) (hescapes : ∀ r ∈ escapes, r.IsEscape)
    {bound : Nat} (hs : s.draft.diagnostics = #[]) (hmax : ∀ m ∈ q.maxLength, length ≤ m)
    (ht : q.body (Rule.evalFirst flags escapes) bound 0 length s = .ok t)
    (hclean : t.draft.diagnostics = #[]) :
    ∃ (items : List (List Char × List UInt8)) (rest : List Char),
      s.upcoming.chars = items.flatMap Prod.fst ++ q.closing :: rest ∧
      (∀ m ∈ q.maxLength, length + items.length ≤ m) ∧ ∀ i ∈ items, q.Item escapes i.1 i.2 := by
  induction bound generalizing s length with
  | zero => cases ht
  | succ bound ih =>
    -- The items of the rest follow the one that was passed.
    have hcons {w : List Char} {bytes : List UInt8} {a : Scanner}
        (hroom : ¬q.maxLength = some length) (hitem : q.Item escapes w bytes)
        (hrenders : s.Renders w bytes a)
        (ha : q.body (Rule.evalFirst flags escapes) bound 0 (length + 1) a = .ok t) :
        ∃ (items : List (List Char × List UInt8)) (rest : List Char),
          s.upcoming.chars = items.flatMap Prod.fst ++ q.closing :: rest ∧
          (∀ m ∈ q.maxLength, length + items.length ≤ m) ∧
            ∀ i ∈ items, q.Item escapes i.1 i.2 := by
      have hmax' : ∀ m ∈ q.maxLength, length + 1 ≤ m := by
        intro m hm
        have hle := hmax m hm
        have hne : length ≠ m := fun heq => hroom (heq ▸ hm)
        omega
      obtain ⟨items, rest, hup, hlength, hitems⟩ := ih (hrenders.diagnostics.trans hs) hmax' ha
      refine ⟨(w, bytes) :: items, rest, ?_, ?_, List.forall_mem_cons.mpr ⟨hitem, hitems⟩⟩
      · rw [hrenders.consumes.upcoming, hup, List.flatMap_cons, List.append_assoc]
      · intro m hm
        have hle := hlength m hm
        rw [List.length_cons]
        omega
    obtain ⟨c, hc, ⟨⟨rfl, -⟩, -⟩ | ⟨hclosing, hline, hroom, hpass⟩⟩ := body_cases ht hclean hs
    · exact ⟨[], _, upcoming_of_current? hc, hmax, fun i hi => absurd hi List.not_mem_nil⟩
    · rcases hpass with ⟨hescape, a, ha, haclean, hbody⟩ | ⟨hescape, hbody⟩
      · rw [isEscape_some_iff] at hescape
        obtain ⟨w, bytes, hw, hrenders⟩ := exists_escaped hescapes hescape ha haclean
        exact hcons hroom (.escaped hescape hw) (hrenders.skip_trans hc) hbody
      · rw [isEscape_some_iff] at hescape
        have hdepth : q.depthAfter 0 c = 0 := by simp [depthAfter, hq]
        rw [hdepth] at hbody
        refine hcons hroom (.plain (fun heq => hclosing ⟨heq, rfl⟩) hescape ?_)
          (decodes_keep hc).renders hbody
        intro hbreak
        rw [endsLine_eq_true_iff, not_and, Bool.not_eq_false] at hline
        exact hline hbreak

/-! ### Quoted texts -/

/-- No item is empty. -/
theorem length_le_of_items (hitems : ∀ i ∈ items, q.Item escapes i.1 i.2) :
    items.length ≤ (items.flatMap Prod.fst).length := by
  induction items with
  | nil => exact Nat.le_refl 0
  | cons i items ih =>
    obtain ⟨hi, hitems⟩ := List.forall_mem_cons.mp hitems
    have hpos : 0 < i.1.length := by
      obtain ⟨w, bytes⟩ := i
      cases hi with
      | plain => exact Nat.zero_lt_succ _
      | escaped => exact Nat.zero_lt_succ _
    have hle := ih hitems
    rw [List.flatMap_cons, List.length_append, List.length_cons]
    omega

/-- The text after an opening delimiter is read without a report if, and only if, it is made of
items up to a closing delimiter. Then these are consumed and decoded. -/
theorem exists_body_iff (flags : Flags) (hq : q.nested = false)
    (hclosing : q.escape ≠ some q.closing) (hline : q.escape ≠ some '\n')
    (hescapes : ∀ r ∈ escapes, r.IsEscape) (hs : s.draft.diagnostics = #[]) {bound : Nat}
    (hbound : s.upcoming.chars.length < bound) :
    ∃ t, q.body (Rule.evalFirst flags escapes) bound 0 0 s = .ok t ∧
      (t.draft.diagnostics = #[] ↔
        ∃ items rest, q.IsContent escapes items s.upcoming.chars rest) ∧
      ∀ items rest, q.IsContent escapes items s.upcoming.chars rest →
        s.Renders (items.flatMap Prod.fst ++ [q.closing]) (items.flatMap Prod.snd) t := by
  have hsteady (s : Scanner) :
      Outcome.Steady (fun _ => True) s (Rule.evalFirst flags escapes s) :=
    Rule.steady_evalFirst (fun r hr => (hescapes r hr).isSteady) s
  obtain ⟨-, t, ht, -⟩ := exists_body hsteady q bound 0 0 hbound
  have hrenders (items : List (List Char × List UInt8)) (rest : List Char)
      (h : q.IsContent escapes items s.upcoming.chars rest) :
      s.Renders (items.flatMap Prod.fst ++ [q.closing]) (items.flatMap Prod.snd) t := by
    have hitems : items.length < bound := by
      have hlength := length_le_of_items h.item
      rw [h.text_eq, List.length_append] at hbound
      omega
    have hmax : ∀ m ∈ q.maxLength, 0 + items.length ≤ m := by
      simpa using h.length_le
    obtain ⟨t', ht', hrenders⟩ :=
      exists_body_of_items hq hclosing hline hescapes h.item hs hmax hitems h.text_eq
    obtain rfl := Except.ok.inj (ht.symm.trans ht')
    exact hrenders
  refine ⟨t, ht, ⟨fun hclean => ?_, ?_⟩, hrenders⟩
  · obtain ⟨items, rest, hitems, hlength, hitem⟩ :=
      exists_items_of_body hq hescapes hs (fun _ _ => Nat.zero_le _) ht hclean
    exact ⟨items, rest, hitems, by simpa using hlength, hitem⟩
  · rintro ⟨items, rest, h⟩
    exact (hrenders items rest h).diagnostics.trans hs

/-- Let a quoted text be without nesting, and let its escape flag be neither the closing delimiter
nor a line feed. At the opening delimiter where a token begins, the rule matches. Nothing is
reported if, and only if, the text after the delimiter is made of items, not more than are allowed,
up to a closing delimiter. Then the delimiters and the items are consumed and nothing beyond, the
kind is that of the rule, and the value has the bytes of the items one after another. -/
theorem reads_grammar (q : Quotation) (hq : q.nested = false) (hclosing : q.escape ≠ some q.closing)
    (hline : q.escape ≠ some '\n') (escapes : List Rule) (hescapes : ∀ r ∈ escapes, r.IsEscape)
    (flags : Flags) (s : Scanner) (hs : s.IsFresh) (text : List Char)
    (hup : s.upcoming.chars = q.opening :: text) :
    ∃ t, (Rule.quotation q escapes).eval flags s = .ok (true, t) ∧
      (t.draft.diagnostics = #[] ↔ ∃ items rest, q.IsContent escapes items text rest) ∧
      ∀ items rest, q.IsContent escapes items text rest →
        t.draft.literal = q.opening :: (items.flatMap Prod.fst ++ [q.closing]) ∧
        t.draft.kind = q.kind ∧ t.upcoming.chars = rest ∧
        t.draft.value = items.flatMap Prod.snd := by
  have hc := current?_of_upcoming hup
  have hopening : s.Consumes [q.opening] (s.skip.setKind q.kind) :=
    (decodes_skip hc).consumes.setKind q.kind
  obtain rfl : (s.skip.setKind q.kind).upcoming.chars = text := (decodes_skip hc).upcoming_eq hup
  have hclean : (s.skip.setKind q.kind).draft.diagnostics = #[] :=
    (decodes_skip hc).diagnostics.trans (congrArg Draft.diagnostics hs.1)
  have hempty : s.skip.draft.value = [] := by
    rw [value_skip, hs.1, Draft.value_empty]
  have hbound := (s.skip.setKind q.kind).two_mul_length_lt_allowance
  have hwithin : (s.skip.setKind q.kind).upcoming.chars.length <
      (s.skip.setKind q.kind).allowance + q.maxLength.getD 0 + 1 := by
    omega
  obtain ⟨t, ht, hiff, hrenders⟩ :=
    exists_body_iff flags hq hclosing hline hescapes hclean hwithin
  refine ⟨t, ?_, hiff, fun items rest h => ⟨?_, (hrenders items rest h).kind, ?_, ?_⟩⟩
  · rw [Rule.eval_quotation, scan, if_pos hc]
    dsimp only
    rw [ht]
    rfl
  · have hliteral := (hopening.trans (hrenders items rest h).consumes).literal
    rwa [hs.1, Draft.literal_empty, List.nil_append] at hliteral
  · exact (hrenders items rest h).upcoming_eq (by rw [h.text_eq, List.append_assoc]; rfl)
  · have hvalue := (hrenders items rest h).value
    rwa [show (s.skip.setKind q.kind).draft.value = s.skip.draft.value from rfl, hempty,
      List.nil_append] at hvalue

/-- Texts in double quotes of up to four characters. -/
def markedSample : Quotation :=
  { marked '"' with maxLength := some 4 }

/-- Escapes of all three kinds, of which the hexadecimal ones give bytes. -/
def escapesSample : List Rule :=
  [.charEscape .controls, .hexEscape (.twoAs true), .octalEscape {}]

/-- A source with a quoted text of four characters, three of them escapes, and a letter after it. -/
def quotedSample : ByteSource :=
  { reads := [.bytes [0x22, 0x61, 0x5C, 0x6E, 0x5C, 0x78, 0x66, 0x66, 0x5C, 0x22, 0x22, 0x63]] }

theorem isContent_quotedSample : markedSample.IsContent escapesSample
    [(['a'], [0x61]), (['\\', 'n'], [0x0A]), (['\\', 'x', 'f', 'f'], [0xFF]),
      (['\\', '"'], [0x22])]
    ['a', '\\', 'n', '\\', 'x', 'f', 'f', '\\', '"', '"', 'c'] ['c'] where
  text_eq := rfl
  length_le := by
    rintro m ⟨⟩
    exact Nat.le_refl 4
  item := by
    have hletter : escapesSample.find? (·.claims 'n') = some (.charEscape .controls) := rfl
    have hbyte : escapesSample.find? (·.claims 'x') = some (.hexEscape (.twoAs true)) := rfl
    have hdigits : ∀ d ∈ ['f', 'f'], CharClass.hexDigit.contains d = true :=
      List.all_eq_true.mp rfl
    simp only [List.forall_mem_cons]
    refine ⟨.plain (by decide) (by decide) (by decide), ?_, ?_, .escaped rfl .closing,
      fun i hi => absurd hi List.not_mem_nil⟩
    · exact .escaped rfl (.decoded (by decide) (by decide) hletter (.char (c := '\n') rfl))
    · exact .escaped rfl (.decoded (by decide) (by decide) hbyte (.hexByte rfl rfl hdigits))

/-- The quoted text is read without a report and stands for four bytes. -/
theorem reads_grammar_quotedSample :
    markedSample.nested = false ∧ markedSample.escape ≠ some markedSample.closing ∧
    markedSample.escape ≠ some '\n' ∧ (∀ r ∈ escapesSample, r.IsEscape) ∧
    (ofSource "f" quotedSample).IsFresh ∧
    ∃ t, (Rule.quotation markedSample escapesSample).eval .off (ofSource "f" quotedSample) =
        .ok (true, t) ∧ t.draft.diagnostics = #[] ∧ t.draft.kind = Kind.string ∧
      t.draft.value = [0x61, 0x0A, 0xFF, 0x22] ∧ t.upcoming.chars = ['c'] := by
  have hescapes : ∀ r ∈ escapesSample, r.IsEscape := by
    simp [escapesSample, Rule.IsEscape]
  have hfresh := isFresh_ofSource "f" quotedSample
  have hclosing : markedSample.escape ≠ some markedSample.closing := by decide
  have hline : markedSample.escape ≠ some '\n' := by decide
  refine ⟨rfl, hclosing, hline, hescapes, hfresh, ?_⟩
  obtain ⟨t, heval, hiff, hread⟩ := reads_grammar markedSample rfl hclosing hline escapesSample
    hescapes .off (ofSource "f" quotedSample) hfresh
    ['a', '\\', 'n', '\\', 'x', 'f', 'f', '\\', '"', '"', 'c'] rfl
  obtain ⟨-, hkind, hrest, hvalue⟩ := hread _ _ isContent_quotedSample
  exact ⟨t, heval, hiff.mpr ⟨_, _, isContent_quotedSample⟩, hkind, hvalue, hrest⟩

end Quotation

end Lexing
