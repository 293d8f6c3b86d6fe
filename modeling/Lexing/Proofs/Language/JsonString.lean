import Lexing.Proofs.Language.Wire
import Lexing.Proofs.Rule.QuotationGrammar

/-!
# The strings of JSON

A string is made of parts between quotation marks. By the standard a part is a code point other than
the quotation mark, the backslash and the controls, or a backslash with one of eight signs or with
the letter `u` and four hexadecimal digits. Such digits denote a code point, and two of them in a
row, each of which denotes a surrogate, denote a code point together.

The tokens of JSON differ from this in two ways. No rule looks at two escapes at once, so that a
surrogate is no part, alone or in a pair. And a string only has to stay on its line, so that all
other controls are parts.

## Main definitions

* `Language.Json.StandardPart` : the parts of strings by the standard.
* `Language.Json.AcceptedPart` : the parts of strings that are read without a report.
* `Language.Json.Begins` : a text begins with a string made of parts.
* `Language.Json.ReadsStrings` : the strings made of parts are the ones that are read from an input.

## Main results

* `Language.Json.item_iff` : parts are what the rule for strings decodes.
* `Language.Json.fits_strings` : strings begin with a quotation mark.
* `Language.Json.reads_strings` : the first token of any input.
* `Language.Json.not_readsStrings_standardPart` : where the standard is not met.
-/

namespace Lexing

open Scanner

namespace Language.Json

variable {flags : Flags} {s t : Scanner} {w text : List Char} {bytes : List UInt8} {c : Char}
  {literal value : List Char}

/-! ### Parts -/

/-- The signs that may stand after a backslash, with what they stand for. -/
def codes : List CharCode :=
  [⟨'"', '"'⟩, ⟨'\\', '\\'⟩, ⟨'/', '/'⟩, .backspace, .formFeed, .lineFeed, .carriageReturn,
    .horizontalTab]

/-- The text is four hexadecimal digits of the number. -/
structure IsCode (digits : List Char) (n : Nat) : Prop where
  length_eq : digits.length = 4
  isHexDigit : ∀ d ∈ digits, CharClass.hexDigit.contains d = true
  value_eq : digitsValue 16 digits = n

/-- The text stands for the code point on its own: it is the code point itself, or a backslash with
a sign for it or with its number. -/
inductive Part : List Char → Char → Prop
  | plain {c : Char} (hmark : c ≠ '"') (hslash : c ≠ '\\') (hcontrol : 0x20 ≤ c.toNat) : Part [c] c
  | sign {code : CharCode} (h : code ∈ codes) : Part ['\\', code.sign] code.meaning
  | number {digits : List Char} {c : Char} (h : IsCode digits c.toNat) :
      Part ('\\' :: 'u' :: digits) c

/-- The text stands for the code point by the standard, on its own or as a pair of surrogates. -/
inductive StandardPart : List Char → Char → Prop
  | part {w : List Char} {c : Char} (h : Part w c) : StandardPart w c
  | pair {high low : List Char} {m n : Nat} {c : Char} (hm : m < 0x400) (hn : n < 0x400)
      (hhigh : IsCode high (0xD800 + m)) (hlow : IsCode low (0xDC00 + n))
      (hc : c.toNat = 0x10000 + m * 0x400 + n) :
      StandardPart ('\\' :: 'u' :: high ++ '\\' :: 'u' :: low) c

/-- The text stands for the code point in the strings that are read without a report, on its own or
as a control within the line. -/
inductive AcceptedPart : List Char → Char → Prop
  | part {w : List Char} {c : Char} (h : Part w c) : AcceptedPart w c
  | control {c : Char} (hcontrol : c.toNat < 0x20) (hline : c ≠ '\n') : AcceptedPart [c] c

/-- The text begins with the literal of a string: quotation marks around parts, which stand for the
code points of the value one after another. -/
def Begins (part : List Char → Char → Prop) (literal value text : List Char) : Prop :=
  ∃ parts : List (List Char × Char), (∀ p ∈ parts, part p.1 p.2) ∧
    literal = '"' :: (parts.flatMap Prod.fst ++ ['"']) ∧ value = parts.map Prod.snd ∧
      literal <+: text

theorem Begins.exists_eq_cons {part : List Char → Char → Prop}
    (h : Begins part literal value text) : ∃ rest, text = '"' :: rest := by
  obtain ⟨parts, -, rfl, -, rest, rfl⟩ := h
  exact ⟨_, List.cons_append⟩

/-! ### Parts are items -/

theorem isEscape_of_mem_escapes : ∀ r ∈ escapes, r.IsEscape := by
  simp [escapes, Rule.IsEscape]

/-- What may stand after a backslash. -/
theorem escaped_iff :
    string.Escaped escapes '\\' w bytes ↔ ∃ c, Part ('\\' :: w) c ∧ bytes = Utf8.encode [c] := by
  constructor
  · intro h
    cases h with
    | closing => exact ⟨'"', .sign (show ⟨'"', '"'⟩ ∈ codes by decide), rfl⟩
    | flag => exact ⟨'\\', .sign (show ⟨'\\', '\\'⟩ ∈ codes by decide), rfl⟩
    | @decoded _ _ r _ _ _ hr hw =>
      have hmem := List.mem_of_find?_eq_some hr
      rw [escapes_eq, List.mem_pair] at hmem
      rcases hmem with rfl | rfl
      · cases hw with
        | @char _ sign c hlookup =>
          have hcodes : ∀ code ∈ letters.table, code ∈ codes := by decide
          exact ⟨c, .sign (hcodes _ (CharEscape.mem_table_of_lookup? hlookup)), rfl⟩
      · cases hw with
        | hex _ hwidth hdigits hc =>
          exact ⟨_, .number ⟨hwidth, hdigits, (Utf8.toNat_of_scalar? hc).symm⟩, rfl⟩
        | hexByte hbyte => cases hbyte
  · rintro ⟨c, h, rfl⟩
    cases h with
    | plain _ hslash => exact absurd rfl hslash
    | @sign code hcode =>
      -- Six of the signs are left to the escape rules.
      have hdecoded (hclosing : code.sign ≠ '"') (hflag : code.sign ≠ '\\')
          (hlookup : letters.lookup? code.sign = some code.meaning) :
          string.Escaped escapes '\\' [code.sign] (Utf8.encode [code.meaning]) := by
        have hclaims : (Rule.charEscape letters).claims code.sign = true := by
          rw [Rule.claims, hlookup, Option.isSome_some]
        have hfind : escapes.find? (·.claims code.sign) = some (.charEscape letters) :=
          List.find?_cons_of_pos hclaims
        exact .decoded hclosing hflag hfind (.char hlookup)
      simp only [codes, List.mem_cons, List.not_mem_nil, or_false] at hcode
      rcases hcode with rfl | rfl | rfl | rfl | rfl | rfl | rfl | rfl
      · exact .closing
      · exact .flag
      all_goals exact hdecoded (by decide) (by decide) (by decide)
    | @number digits _ h =>
      have hfind : escapes.find? (·.claims 'u') = some (.hexEscape .four) := rfl
      exact .decoded (by decide) (by decide) hfind
        (.hex rfl h.length_eq h.isHexDigit (h.value_eq ▸ Utf8.scalar?_toNat _))

/-- The parts that are read are what the rule for strings decodes. -/
theorem item_iff :
    string.Item escapes w bytes ↔ ∃ c, AcceptedPart w c ∧ bytes = Utf8.encode [c] := by
  constructor
  · intro h
    cases h with
    | @plain c hclosing hescape hline =>
      refine ⟨c, ?_, rfl⟩
      by_cases hcontrol : c.toNat < 0x20
      · exact .control hcontrol fun heq => Bool.false_ne_true (hline heq)
      · exact .part (.plain hclosing (fun heq => hescape (congrArg some heq.symm))
          (Nat.le_of_not_lt hcontrol))
    | escaped hflag hw =>
      obtain rfl := Option.some.inj hflag
      obtain ⟨c, hc, hbytes⟩ := escaped_iff.mp hw
      exact ⟨c, .part hc, hbytes⟩
  · rintro ⟨c, hpart | ⟨hcontrol, hline⟩, rfl⟩
    · cases hpart with
      | plain hmark hslash hcontrol =>
        refine .plain hmark (fun heq => hslash (Option.some.inj heq).symm) fun heq => ?_
        exact absurd hcontrol (heq ▸ by decide)
      | sign h => exact .escaped rfl (escaped_iff.mpr ⟨_, .sign h, rfl⟩)
      | number h => exact .escaped rfl (escaped_iff.mpr ⟨_, .number h, rfl⟩)
    · refine .plain ?_ ?_ fun heq => absurd heq hline
      · exact fun heq => absurd hcontrol (heq ▸ by decide)
      · exact fun heq => absurd hcontrol (Option.some.inj heq ▸ by decide)

/-- Items between quotation marks are parts. -/
theorem exists_begins {items : List (List Char × List UInt8)} {rest : List Char}
    (h : string.IsContent escapes items text rest) :
    ∃ literal value, Begins AcceptedPart literal value ('"' :: text) := by
  have hparts {items : List (List Char × List UInt8)}
      (hitems : ∀ i ∈ items, string.Item escapes i.1 i.2) :
      ∃ parts : List (List Char × Char), (∀ p ∈ parts, AcceptedPart p.1 p.2) ∧
        parts.flatMap Prod.fst = items.flatMap Prod.fst := by
    induction items with
    | nil => exact ⟨[], List.forall_mem_nil _, rfl⟩
    | cons i items ih =>
      obtain ⟨hi, hitems⟩ := List.forall_mem_cons.mp hitems
      obtain ⟨c, hc, -⟩ := item_iff.mp hi
      obtain ⟨parts, hparts, heq⟩ := ih hitems
      exact ⟨(i.1, c) :: parts, List.forall_mem_cons.mpr ⟨hc, hparts⟩, congrArg (i.1 ++ ·) heq⟩
  obtain ⟨parts, hparts, heq⟩ := hparts h.item
  refine ⟨_, _, parts, hparts, rfl, rfl, rest, ?_⟩
  rw [heq, h.text_eq, List.cons_append, List.append_assoc]
  rfl

/-- Parts between quotation marks are items. -/
theorem Begins.exists_isContent (h : Begins AcceptedPart literal value ('"' :: text)) :
    ∃ items rest, string.IsContent escapes items text rest ∧
      literal = '"' :: (items.flatMap Prod.fst ++ ['"']) ∧
      items.flatMap Prod.snd = Utf8.encode value := by
  obtain ⟨parts, hparts, rfl, rfl, rest, hrest⟩ := h
  have htexts : (parts.map fun p => (p.1, Utf8.encode [p.2])).flatMap Prod.fst =
      parts.flatMap Prod.fst := by
    rw [List.flatMap_map]
  refine ⟨parts.map fun p => (p.1, Utf8.encode [p.2]), rest, ⟨?_, ?_, ?_⟩, ?_, ?_⟩
  · have hsplit : text = parts.flatMap Prod.fst ++ ['"'] ++ rest := (List.cons.inj hrest).2.symm
    rw [htexts, hsplit, List.append_assoc]
    rfl
  · rintro m ⟨⟩
  · intro i hi
    obtain ⟨p, hp, rfl⟩ := List.mem_map.mp hi
    exact item_iff.mpr ⟨p.2, hparts p hp, rfl⟩
  · rw [htexts]
  · simp [Utf8.encode, List.flatMap_map]

/-! ### Reading a string -/

/-- At a quotation mark, nothing is reported only if the text begins with a string. If it does, the
string is consumed and the draft becomes its value. -/
theorem exists_read (flags : Flags) (hs : s.IsFresh) (hup : s.upcoming.chars = '"' :: text) :
    ∃ t, lexicon.read flags s = .ok t ∧
      (t.draft.diagnostics = #[] →
        ∃ literal value, Begins AcceptedPart literal value ('"' :: text)) ∧
      ∀ literal value, Begins AcceptedPart literal value ('"' :: text) →
        s.Spells literal ⟨Kind.string, String.ofList value⟩ t := by
  have hc := current?_of_upcoming hup
  have hopening := decodes_skip hc
  obtain rfl : s.skip.upcoming.chars = text := hopening.upcoming_eq hup
  have hclean : (s.skip.setKind Kind.string).draft.diagnostics = #[] :=
    hopening.diagnostics.trans (congrArg Draft.diagnostics hs.1)
  have hempty : (s.skip.setKind Kind.string).draft.value = [] := by
    change s.skip.draft.value = []
    rw [value_skip, hs.1, Draft.value_empty]
  have hbound := (s.skip.setKind Kind.string).two_mul_length_lt_allowance
  have hwithin : (s.skip.setKind Kind.string).upcoming.chars.length <
      (s.skip.setKind Kind.string).allowance + string.maxLength.getD 0 + 1 := by
    omega
  obtain ⟨t, ht, hiff, hrenders⟩ := Quotation.exists_body_iff (q := string) flags rfl (by decide)
    (by decide) isEscape_of_mem_escapes hclean hwithin
  refine ⟨t, read_of_evalFirst ?_, fun hreport => ?_, fun literal value hbegins => ?_⟩
  · change Rule.evalFirst flags (.quotation string escapes :: _) s = _
    have hscan : string.scan (Rule.evalFirst flags escapes) s = .ok (true, t) := by
      rw [Quotation.scan]
      exact (if_pos hc).trans (congrArg (· >>= fun t => pure (true, t)) ht)
    rw [Rule.evalFirst_cons, Rule.eval_quotation, hscan]
    rfl
  · obtain ⟨items, rest, hcontent⟩ := hiff.mp hreport
    exact exists_begins hcontent
  · obtain ⟨items, rest, hcontent, rfl, hvalue⟩ := hbegins.exists_isContent
    have hrest := hrenders items rest hcontent
    refine ⟨(hopening.consumes.setKind Kind.string).trans hrest.consumes, ?_, ?_,
      hrest.diagnostics.trans hclean⟩
    · rw [hrest.value, hempty, hvalue, String.toList_ofList, List.nil_append]
    · simp [emittedKind, hrest.kind, setKind, Kind.string]

/-! ### Where strings begin -/

/-- The profile that says of the tokens of JSON where strings begin. -/
def strings : Profile where
  scanned := fun token w _ => token.kind = Kind.string → w.head? = some '"'
  between := fun _ _ _ => False
  finish := fun _ token => token

/-- Tokens that are strings begin with a quotation mark. -/
theorem fits_strings : lexicon.Fits flags strings where
  rules := by
    have hsteady : ∀ r ∈ escapes, r.IsSteady flags fun _ => True :=
      fun r hr => (isEscape_of_mem_escapes r hr).isSteady
    have hstring : (Rule.quotation string escapes).IsSound flags (Emits strings.scanned) :=
      (Rule.isSound_quotation_opening hsteady).mono fun _ _ h _ => h
    have hnumber : (Rule.number number none []).IsSound flags (Emits strings.scanned) := by
      have hkinds : IsKinds [Kind.illegal, Kind.integer, Kind.real] := ⟨by decide, by decide⟩
      have hlabels : number.Labels (· ∈ [Kind.illegal, Kind.integer, Kind.real]) :=
        ⟨by decide, by decide, fun _ h => nomatch h⟩
      refine (Rule.isSound_number_kind hkinds hlabels (by simp) (by simp)).mono
        fun _ _ hmem hkind => ?_
      rw [HasKindIn, hkind] at hmem
      exact absurd hmem (by decide)
    have hwords : (Rule.literal { words := .ofWords words }).IsSound flags
        (Emits strings.scanned) := by
      refine (Rule.isSound_word words).mono fun _ _ hword hkind => ?_
      rw [← hword.2, hkind] at hword
      exact absurd hword.1 (by decide)
    simpa [lexicon] using ⟨hstring, hnumber, hwords⟩
  discardRule _ hr := by simp [lexicon] at hr
  unexpected s _ _ _ hkind := by
    have hillegal : s.keepUnexpected.HasKindIn [Kind.illegal] :=
      IsKinds.hasKindIn ⟨by decide, by decide⟩ (.inr s.kind_keepUnexpected)
    rw [HasKindIn, hkind] at hillegal
    exact absurd hillegal (by decide)
  beforeToken _ := rfl
  afterToken _ _ := rfl
  noMatch _ := rfl
  finish _ _ _ := ⟨rfl, rfl⟩

/-- The literal of a string begins with a quotation mark. -/
theorem head?_literal {token : Token} (hs : s.IsFresh)
    (hnext : lexicon.next flags s = .ok (token, t)) (hkind : token.kind = Kind.string) :
    token.literal.toList.head? = some '"' := by
  cases fits_strings.step_of_next hs hnext with
  | token hbrings =>
    obtain ⟨-, -, -, -, hmade, -, hliteral, -⟩ := hbrings
    rw [hliteral, String.toList_ofList]
    cases hmade with
    | between h => exact h.elim
    | scanned h => exact h hkind
  | failure => exact absurd hkind (by decide : Kind.error ≠ Kind.string)
  | ended _ _ _ hend =>
    rw [Token.isEnd, hkind] at hend
    exact absurd hend (by decide)

/-! ### The first token -/

/-- The token is a string without problems at the beginning of the text called `name`: its literal
stands there, and its position tells so. -/
structure OpensWithString (name : String) (text : List Char) (token : Token) : Prop where
  kind : token.kind = Kind.string
  diagnostics : token.diagnostics = []
  literal : token.literal.toList <+: text
  position : token.position = .start name

/-- The tokens of the input exist. The first one is a string without problems at the beginning of
the input if, and only if, the input begins with a string that is made of parts, and then the token
has the literal and the value of that string. -/
def ReadsStrings (part : List Char → Char → Prop) (flags : Flags) (name : String)
    (input : CharStream) : Prop :=
  ∃ tokens, lexicon.tokens flags (ofStream name input) = .ok tokens ∧
    ∀ literal value, (∃ token ∈ tokens.head?, OpensWithString name input.drain.1 token ∧
        token.literal = String.ofList literal ∧ token.value = String.ofList value) ↔
      Begins part literal value input.drain.1

/-- From a quotation mark on, the next token is what is read. -/
theorem exists_next (flags : Flags) (hs : s.IsFresh) (hup : s.upcoming.chars = '"' :: text) :
    ∃ token t, lexicon.next flags s = .ok (token, t) ∧ token.isEnd = false ∧
      (token.diagnostics = [] →
        ∃ literal value, Begins AcceptedPart literal value ('"' :: text)) ∧
      ∀ literal value, Begins AcceptedPart literal value ('"' :: text) →
        token.kind = Kind.string ∧ token.diagnostics = [] ∧ token.position = s.position ∧
          token.literal = String.ofList literal ∧ token.value = String.ofList value := by
  obtain ⟨t, hread, hclean, hspells⟩ := exists_read flags hs hup
  have hcurrent := current?_of_upcoming hup
  have hgap : s.whileIn lexicon.discards .discard = s := by
    rw [whileIn, hup, moveWhile, hcurrent, Option.any_some]
    exact if_neg (by decide)
  have hend : s.atEnd = false := by rw [atEnd, hcurrent, Option.isNone_some]
  obtain ⟨hnext, hmore, -⟩ := isDirect.next_of_read hs (hgap.symm ▸ hend) (hgap.symm ▸ hread)
  refine ⟨_, _, hnext, hmore, fun hreport => hclean ?_, fun literal value hbegins => ?_⟩
  · rcases t.checkValue_eq with hcheck | ⟨problem, hcheck⟩
    · rw [hcheck] at hreport
      exact Array.toList_eq_nil_iff.mp hreport
    · rw [hcheck] at hreport
      exact absurd (Array.toList_eq_nil_iff.mp hreport) Array.push_ne_empty
  · have hspelt := hspells literal value hbegins
    obtain ⟨hlexeme, hproblems⟩ := hspelt.assembled
    have hne : literal ≠ [] := by
      obtain ⟨parts, -, rfl, -⟩ := hbegins
      exact List.cons_ne_nil _ _
    obtain ⟨u, -, -, -, hliteral, hposition⟩ := hspelt.consumes.exists_emit hs hne
    exact ⟨congrArg Lexeme.kind hlexeme, hproblems, hposition, hliteral,
      congrArg Lexeme.value hlexeme⟩

/-- From any input, the strings that are read are those made of the parts of the standard that stand
for a code point on their own, and of controls other than the line feed. -/
theorem reads_strings (flags : Flags) (name : String) (input : CharStream) :
    ReadsStrings AcceptedPart flags name input := by
  have hs := isFresh_ofStream name input
  have hup := upcoming_ofStream name input
  have hstart := position_ofStream name input
  have hfits : lexicon.Fits flags profile := fits_lexicon
  obtain ⟨tokens, htokens, hrun⟩ := hfits.exists_tokens hs (dropsVisibly _)
  refine ⟨tokens, htokens, fun literal value => ⟨?_, fun hbegins => ?_⟩⟩
  · rintro ⟨token, htoken, hopens, hliteral, hvalue⟩
    cases hrun with
    | ended => cases htoken
    | token hnext =>
      obtain rfl := Option.some.inj htoken
      obtain ⟨text, htext⟩ : ∃ text, (ofStream name input).upcoming.chars = '"' :: text := by
        obtain ⟨more, hmore⟩ := List.head?_eq_some_iff.mp (head?_literal hs hnext hopens.kind)
        obtain ⟨rest, hrest⟩ := hopens.literal
        exact ⟨more ++ rest, by rw [hup, ← hrest, hmore, List.cons_append]⟩
      obtain ⟨token', t', hnext', -, hclean, hread⟩ := exists_next flags hs htext
      obtain ⟨rfl, -⟩ := Prod.mk.inj (Except.ok.inj (hnext.symm.trans hnext'))
      obtain ⟨literal', value', hbegins⟩ := hclean hopens.diagnostics
      obtain ⟨-, -, -, hliteral', hvalue'⟩ := hread literal' value' hbegins
      obtain rfl := String.ofList_injective (hliteral.symm.trans hliteral')
      obtain rfl := String.ofList_injective (hvalue.symm.trans hvalue')
      rwa [← hup, htext]
  · obtain ⟨text, htext⟩ := hbegins.exists_eq_cons
    obtain ⟨token, t, hnext, hmore, -, hread⟩ := exists_next flags hs (hup.trans htext)
    obtain ⟨rest, rfl, -⟩ := hrun.of_next hnext hmore
    obtain ⟨hkind, hproblems, hposition, hliteral, hvalue⟩ := hread literal value (htext ▸ hbegins)
    have hprefix : token.literal.toList <+: input.drain.1 := by
      obtain ⟨-, -, -, -, hprefix⟩ := hbegins
      rwa [hliteral, String.toList_ofList]
    exact ⟨token, rfl, ⟨hkind, hproblems, hprefix, hposition.trans hstart⟩, hliteral, hvalue⟩

/-- A source with a string of one pair of surrogates. -/
def pairSample : ByteSource :=
  { reads := [.bytes [0x22, 0x5C, 0x75, 0x44, 0x38, 0x33, 0x44, 0x5C, 0x75, 0x44, 0x45, 0x30, 0x30,
      0x22]] }

/-- A source with a horizontal tab between quotation marks. -/
def tabSample : ByteSource :=
  { reads := [.bytes [0x22, 0x09, 0x22]] }

theorem begins_pairSample : Begins StandardPart
    ['"', '\\', 'u', 'D', '8', '3', 'D', '\\', 'u', 'D', 'E', '0', '0', '"'] ['😀']
    (CharStream.ofSource pairSample).load.drain.1 := by
  have hhigh : IsCode ['D', '8', '3', 'D'] (0xD800 + 0x3D) :=
    ⟨rfl, List.all_eq_true.mp rfl, rfl⟩
  have hlow : IsCode ['D', 'E', '0', '0'] (0xDC00 + 0x200) :=
    ⟨rfl, List.all_eq_true.mp rfl, rfl⟩
  have hpair : StandardPart ['\\', 'u', 'D', '8', '3', 'D', '\\', 'u', 'D', 'E', '0', '0'] '😀' :=
    .pair (by decide) (by decide) hhigh hlow rfl
  exact ⟨[(_, '😀')], List.forall_mem_singleton.mpr hpair, rfl, rfl, [], rfl⟩

/-- By the standard no string has the tab as it is. -/
theorem not_begins_tab : ¬Begins StandardPart ['"', '\t', '"'] ['\t'] text := by
  rintro ⟨parts, hparts, hliteral, hvalue, -⟩
  obtain ⟨p, rfl, hp⟩ := List.map_eq_singleton_iff.mp hvalue.symm
  rw [List.flatMap_singleton] at hliteral
  have hw : ['\t'] = p.1 := List.append_cancel_right (List.cons.inj hliteral).2
  have hpart := List.forall_mem_singleton.mp hparts
  rw [hp, ← hw] at hpart
  cases hpart with
  | part hpart =>
    cases hpart with
    | plain _ _ hcontrol => exact absurd hcontrol (by decide)

/-- The strings of the standard are not the ones that are read. The pair of surrogates is a string
of the standard from which an illegal token is read, and the tab between quotation marks is read as
a string though it is none of the standard. -/
theorem not_readsStrings_standardPart :
    ¬ReadsStrings StandardPart .off "f" (CharStream.ofSource pairSample).load ∧
    ¬ReadsStrings StandardPart .off "f" (CharStream.ofSource tabSample).load := by
  constructor
  · rintro ⟨tokens, htokens, hiff⟩
    obtain ⟨token, htoken, hopens, -⟩ := (hiff _ _).mpr begins_pairSample
    have hillegal : (lexicon.tokens .off (ofStream "f" (CharStream.ofSource pairSample).load)).map
        (List.head? · |>.map Token.kind) = .ok (some Kind.illegal) := rfl
    rw [htokens] at hillegal
    have hkind : tokens.head?.map Token.kind = some Kind.illegal := Except.ok.inj hillegal
    rw [Option.mem_def.mp htoken, Option.map_some, hopens.kind] at hkind
    exact absurd hkind (by decide)
  · rintro ⟨tokens, htokens, hiff⟩
    have hread : lexicon.tokens .off (ofStream "f" (CharStream.ofSource tabSample).load) =
        .ok [{ value := "\t", literal := "\"\t\"", kind := Kind.string, position := .start "f" }] :=
      rfl
    obtain rfl := Except.ok.inj (htokens.symm.trans hread)
    exact not_begins_tab ((hiff _ _).mp ⟨_, rfl, ⟨rfl, rfl, ⟨[], rfl⟩, rfl⟩, rfl, rfl⟩)

end Language.Json

end Lexing
