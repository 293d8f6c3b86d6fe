import Lexing.Proofs.Language.Json
import Lexing.Proofs.Rule.Decoding
import Lexing.Proofs.Token.Layout

/-!
# JSON reads wire documents back

The tokens of JSON that are scanned from a layout are its lexemes, and nothing is reported. Since
both written forms of a wire document are layouts of its lexemes, both are read back alike: every
text is a string with exactly the value that was written, and every number an integer.

Each lexeme is read by one rule. The rules that are tried before it do not match and give everything
back.

## Main definitions

* `Scanner.Spells` : the draft has become a lexeme.
* `Language.Json.Finds`, `Language.Json.Yields` : a lexeme is the next token, and lexemes are all
  tokens.

## Main results

* `Language.Json.writes_escape` : what the writer escapes, strings decode.
* `Language.Json.finds_text`, `Language.Json.finds_number`, `Language.Json.finds_mark` : one lexeme.
* `Language.Json.yields_of_layout` : the tokens of a layout are its lexemes.
* `Language.Json.wire_read_back` : both written forms of a list of tokens.
-/

namespace Lexing

open Scanner

/-! ### Lexemes from drafts -/

/-- The text `w` was consumed from an empty draft, which has become the lexeme `l` without problems.
-/
structure Scanner.Spells (s : Scanner) (w : List Char) (l : Lexeme) (t : Scanner) : Prop where
  consumes : s.Consumes w t
  value : t.draft.value = Utf8.encode l.value.toList
  kind : t.emittedKind = l.kind
  diagnostics : t.draft.diagnostics = #[]

theorem Scanner.Spells.assembled {s t : Scanner} {w : List Char} {l : Lexeme}
    (h : s.Spells w l t) :
    t.checkValue.assembled.lexeme = l ∧ t.checkValue.assembled.diagnostics = [] := by
  rw [checkValue_of_value_eq h.value]
  constructor
  · rw [Token.lexeme, Scanner.assembled, valueText_of_value_eq h.value, String.ofList_toList,
      h.kind]
  · rw [Scanner.assembled, h.diagnostics]

/-- A text that was given a kind before its last part was decoded. -/
theorem Scanner.IsFresh.spells {s t u : Scanner} {w w' v v' : List Char} {kind : String}
    (hs : s.IsFresh) (hkind : kind ≠ "") (h₁ : s.Decodes w v t)
    (h₂ : (t.setKind kind).Decodes w' v' u) :
    s.Spells (w ++ w') ⟨kind, String.ofList (v ++ v')⟩ u where
  consumes := (h₁.consumes.setKind kind).trans h₂.consumes
  value := by
    have hvalue : (t.setKind kind).draft.value = Utf8.encode v :=
      h₁.value.trans (by rw [hs.1]; rfl)
    rw [h₂.value, hvalue, String.toList_ofList, Utf8.encode, Utf8.encode, Utf8.encode,
      List.flatMap_append]
  kind := by simp [emittedKind, h₂.kind, setKind, hkind]
  diagnostics := by
    have hproblems : (t.setKind kind).draft.diagnostics = #[] :=
      h₁.diagnostics.trans (by rw [hs.1])
    exact h₂.diagnostics.trans hproblems

/-- A text that was given no kind is a kind of its own. -/
theorem Scanner.IsFresh.spells_of_unlabelled {s t : Scanner} {w v : List Char} (hs : s.IsFresh)
    (h : s.Decodes w v t) : s.Spells w ⟨String.ofList v, String.ofList v⟩ t := by
  have hvalue : t.draft.value = Utf8.encode (String.ofList v).toList := by
    simpa [hs.1] using h.value
  refine ⟨h.consumes, hvalue, ?_, by simpa [hs.1] using h.diagnostics⟩
  rw [emittedKind, h.kind, hs.1, valueText_of_value_eq hvalue, String.ofList_toList]
  rfl

namespace Language.Json

variable {flags : Flags} {s t : Scanner} {rest : List Char} {c : Char}

/-! ### Strings -/

/-- The letters that stand for code points after a backslash. -/
def letters : CharEscape :=
  ⟨[.backspace, .formFeed, .lineFeed, .carriageReturn, .horizontalTab, ⟨'/', '/'⟩]⟩

theorem escapes_eq : escapes = [.charEscape letters, .hexEscape .four] := rfl

/-- A code point that is escaped by a letter. -/
theorem writes_letter (flags : Flags) {letter : Char} (hmark : letter ≠ '\x22')
    (hslash : letter ≠ '\\') (hletter : letters.lookup? letter = some c) :
    string.Writes (Rule.evalFirst flags escapes) c ['\\', letter] := by
  refine .escaped (by decide) (by decide) (by decide) fun s rest hup => ?_
  obtain ⟨t, ht, hdecodes⟩ := CharEscape.exists_attempt hletter hup
  have hcurrent : s.current? = some letter := current?_of_upcoming hup
  refine ⟨t, Quotation.unescape_of_decoded ?_ ?_ ?_, hdecodes⟩
  · rw [hcurrent]
    exact fun h => hmark (Option.some.inj h)
  · simpa [Quotation.isEscape, hcurrent, string, Quotation.marked] using hslash
  · rw [escapes_eq, Rule.evalFirst_cons, Rule.eval_charEscape, ht]
    rfl

/-- A control that is escaped by its number in four hexadecimal digits. -/
theorem writes_control (flags : Flags) (hc : c.toNat < 0x20) :
    string.Writes (Rule.evalFirst flags escapes) c
      ['\\', 'u', '0', '0', Nat.digitChar (c.toNat / 16), Nat.digitChar (c.toNat % 16)] := by
  have hcode : ∀ n < 0x20,
      ['0', '0', Nat.digitChar (n / 16), Nat.digitChar (n % 16)].all
        CharClass.hexDigit.contains = true ∧
      digitsValue 16 ['0', '0', Nat.digitChar (n / 16), Nat.digitChar (n % 16)] = n := by
    decide
  obtain ⟨hdigits, hvalue⟩ := hcode c.toNat hc
  refine .escaped (by decide) (by decide) (by decide) fun s rest hup => ?_
  have hcurrent : s.current? = some 'u' := current?_of_upcoming hup
  obtain ⟨t, ht, hdecodes⟩ := HexEscape.exists_attempt (e := .four) rfl rfl
    (List.all_eq_true.mp hdigits)
    (by rw [hvalue, Utf8.scalar?_toNat]) hup
  refine ⟨t, Quotation.unescape_of_decoded ?_ ?_ ?_, hdecodes⟩
  · rw [hcurrent]
    decide
  · rw [hcurrent]
    decide
  · have hmiss : letters.attempt s = none := by
      rw [CharEscape.attempt, hcurrent]
      rfl
    rw [escapes_eq, Rule.evalFirst_cons, Rule.eval_charEscape, hmiss]
    change Rule.evalFirst flags [.hexEscape .four] s = _
    rw [Rule.evalFirst_cons, Rule.eval_hexEscape, ht]
    rfl

/-- Strings decode what the writer escapes. -/
theorem writes_escape (flags : Flags) (c : Char) :
    string.Writes (Rule.evalFirst flags escapes) c (Wire.escape c) := by
  -- After a backslash, the quotation mark and the backslash stand for themselves.
  have hself (hc : c = '\x22' ∨ c = '\\') :
      string.Writes (Rule.evalFirst flags escapes) c ['\\', c] := by
    refine .escaped (by decide) (by decide) (by decide) fun s rest hup => ?_
    have hcurrent : s.current? = some c := current?_of_upcoming hup
    refine ⟨s.keep, Quotation.unescape_of_plain ?_, decodes_keep hcurrent⟩
    rcases hc with rfl | rfl
    · exact .inl hcurrent
    · exact .inr (by rw [hcurrent]; decide)
  unfold Wire.escape
  split_ifs with hmark hslash hb hf hn hr ht hcontrol
  · exact hmark ▸ hself (.inl hmark)
  · exact hslash ▸ hself (.inr hslash)
  · exact writes_letter flags (by decide) (by decide) (hb ▸ by decide)
  · exact writes_letter flags (by decide) (by decide) (hf ▸ by decide)
  · exact writes_letter flags (by decide) (by decide) (hn ▸ by decide)
  · exact writes_letter flags (by decide) (by decide) (hr ▸ by decide)
  · exact writes_letter flags (by decide) (by decide) (ht ▸ by decide)
  · exact writes_control flags hcontrol
  · exact .plain hmark (by simp [Quotation.endsLine, hn])
      (by simpa [Quotation.isEscape, string, Quotation.marked] using hslash)

/-! ### Numbers -/

theorem contains_digit (c : Char) : number.digit.contains c = c.isDigit := by
  simp [number, Numeral.scientific, Numeral.decimal, Numeral.integer, CharClass.decimalDigit,
    CharClass.contains, Char.isDigit, Char.le_def, ge_iff_le]

theorem ne_of_isDigit {d : Char} (hc : c.isDigit = true) (hd : d.isDigit = false) : c ≠ d := by
  rintro rfl
  rw [hc] at hd
  exact Bool.noConfusion hd

/-- A number in decimal digits begins with a zero only if it is zero. -/
theorem eq_zero_of_head_toDigits {n : Nat} (h : (Nat.toDigits 10 n).head? = some '0') : n = 0 := by
  induction n using Nat.strongRecOn with
  | ind n ih =>
    by_cases hn : n < 10
    · rw [Nat.toDigits_of_lt_base hn] at h
      exact Nat.digitChar_eq_zero.mp (Option.some.inj h)
    · rw [Nat.toDigits_of_base_le (by decide) (by omega),
        List.head?_append_of_ne_nil _ Nat.toDigits_ne_nil] at h
      have hzero := ih (n / 10) (by omega) h
      omega

/-- What ends a number for the writer ends it for the reader. -/
theorem stops_of_endsNumber (h : EndsNumber rest) : number.Stops rest := by
  rcases rest with _ | ⟨c, rest⟩
  · exact ⟨rfl, rfl, rfl, rfl⟩
  · obtain ⟨hdigit, hother⟩ := h c rfl
    simp only [List.mem_cons, List.not_mem_nil, or_false, not_or] at hother
    refine ⟨(contains_digit c).trans hdigit, rfl, ?_, ?_⟩
    · simpa [number, Numeral.scientific, Numeral.decimal, CharClass.covers, CharClass.contains]
        using hother.1
    · simpa [number, Numeral.scientific, CharClass.covers, CharClass.contains, CharClass.oneOf]
        using hother.2

/-! ### One lexeme -/

theorem read_of_evalFirst (h : Rule.evalFirst flags lexicon.rules s = .ok (true, t)) :
    lexicon.read flags s = .ok t := by
  rw [Lexicon.read, h]
  rfl

/-- Where no quotation mark stands, numbers and words are tried. -/
theorem evalFirst_of_not_string (h : s.current? ≠ some '\x22') :
    Rule.evalFirst flags lexicon.rules s =
      Rule.evalFirst flags
        [.number number none [], .literal { words := .ofWords words }] s := by
  have hmiss : string.scan (Rule.evalFirst flags escapes) s = .ok (false, s) := if_neg h
  change Rule.evalFirst flags (.quotation string escapes :: _) s = _
  rw [Rule.evalFirst_cons, Rule.eval_quotation, hmiss]
  rfl

/-- The next token is the lexeme `l`, has no diagnostics and stands before `rest`. -/
def Finds (flags : Flags) (s : Scanner) (l : Lexeme) (rest : List Char) : Prop :=
  ∃ token t, lexicon.next flags s = .ok (token, t) ∧ token.isEnd = false ∧ token.lexeme = l ∧
    token.diagnostics = [] ∧ t.IsFresh ∧ (s.IsClean → t.IsClean) ∧ t.upcoming.chars = rest

/-- The next token is what is read, where nothing is discarded. -/
theorem finds_of_spells {w : List Char} {l : Lexeme} (hs : s.IsFresh)
    (hup : s.upcoming.chars = c :: (w ++ rest)) (hc : discards.contains c = false)
    (hread : lexicon.read flags s = .ok t) (hspells : s.Spells (c :: w) l t) :
    Finds flags s l rest := by
  have hcurrent : s.current? = some c := current?_of_upcoming hup
  have hgap : s.whileIn lexicon.discards .discard = s := by
    rw [whileIn, hup, moveWhile, hcurrent, Option.any_some]
    exact if_neg (by simp [lexicon, hc])
  have hend : s.atEnd = false := by rw [atEnd, hcurrent, Option.isNone_some]
  obtain ⟨hnext, hmore, -⟩ := isDirect.next_of_read hs (hgap.symm ▸ hend) (hgap.symm ▸ hread)
  obtain ⟨-, hpass⟩ := hspells.consumes.passes_renew hs (List.cons_ne_nil c w)
  obtain ⟨hlexeme, hproblems⟩ := hspells.assembled
  refine ⟨t.checkValue.assembled, (Lexicon.accept _ t.renew).2, hnext, hmore, hlexeme, hproblems,
    ?_⟩
  rw [Lexicon.accept_eq]
  refine ⟨hpass.isFresh, hpass.isClean, ?_⟩
  have hupcoming : (c :: w) ++ t.renew.upcoming.chars = (c :: w) ++ rest :=
    hpass.upcoming.symm.trans hup
  exact List.append_cancel_left hupcoming

theorem finds_text (flags : Flags) (hs : s.IsFresh) (v : String)
    (hup : s.upcoming.chars = (Wire.textLiteral v).toList ++ rest) :
    Finds flags s (.text v) rest := by
  have hbegins : s.upcoming.chars =
      string.opening :: (v.toList.flatMap Wire.escape ++ string.closing :: rest) := by
    rw [hup, Wire.textLiteral, String.toList_ofList]
    simp [string, Quotation.marked, Quotation.between]
  obtain ⟨t, ht, hdecodes⟩ := Quotation.exists_scan_of_writes rfl rfl (writes_escape flags) hbegins
  have hread : lexicon.read flags s = .ok t := by
    refine read_of_evalFirst ?_
    change Rule.evalFirst flags (.quotation string escapes :: _) s = _
    rw [Rule.evalFirst_cons, Rule.eval_quotation, ht]
    rfl
  have hopening := decodes_skip (current?_of_upcoming hbegins)
  have hspells := hs.spells (by decide) hopening hdecodes
  rw [List.nil_append, String.ofList_toList] at hspells
  exact finds_of_spells hs (by simpa using hbegins) (by decide) hread hspells

theorem finds_number (flags : Flags) (hs : s.IsFresh) (n : Nat) (hrest : EndsNumber rest)
    (hup : s.upcoming.chars = n.repr.toList ++ rest) : Finds flags s (.number n) rest := by
  have hdigits : ∀ d ∈ n.repr.toList, d.isDigit = true := fun d hd =>
    Nat.isDigit_of_mem_toDigits (by decide) (by decide) (Nat.toList_repr ▸ hd)
  have hzero : n.repr.toList.head? = some '0' → n.repr.toList = ['0'] := by
    rw [Nat.toList_repr]
    intro h
    rw [eq_zero_of_head_toDigits h]
    rfl
  have hne : n.repr.toList ≠ [] := Nat.toList_repr ▸ Nat.toDigits_ne_nil
  have hscan : ∃ t, number.scan (Rule.evalLead flags none) (Rule.evalFirst flags []) s =
      .ok (true, t) ∧ (s.setKind Kind.integer).Decodes n.repr.toList n.repr.toList t :=
    Numeral.exists_scan_of_digits (fun _ => rfl) (fun _ => rfl) rfl rfl (stops_of_endsNumber hrest)
      hne (fun d hd => (contains_digit d).trans (hdigits d hd))
      (fun d hd => beq_eq_false_iff_ne.mpr (ne_of_isDigit (hdigits d hd) (by decide)))
      (fun _ => hzero) hup
  obtain ⟨t, ht, hdecodes⟩ := hscan
  have hspells := hs.spells (by decide) (.refl s) hdecodes
  rw [List.nil_append, String.ofList_toList] at hspells
  generalize n.repr.toList = digits at hdigits hne hup hspells
  obtain ⟨d, digits, rfl⟩ := List.exists_cons_of_ne_nil hne
  have hd : d.isDigit = true := hdigits d List.mem_cons_self
  have hblank : discards.contains d = false := by
    simp [discards, CharClass.contains, CharClass.oneOf, ne_of_isDigit hd]
  refine finds_of_spells hs hup hblank (read_of_evalFirst ?_) hspells
  have hmark : s.current? ≠ some '\x22' := by
    rw [current?_of_upcoming hup]
    simpa using ne_of_isDigit hd (by decide)
  rw [evalFirst_of_not_string hmark, Rule.evalFirst_cons, Rule.eval_number, ht]
  rfl

theorem finds_mark (flags : Flags) (hs : s.IsFresh) (hc : IsMark c)
    (hup : s.upcoming.chars = c :: rest) : Finds flags s (.mark c) rest := by
  obtain ⟨hmark, hzero, hsign, hdigit, hseparator, hpoint, hblank⟩ : c ≠ '\x22' ∧ c ≠ '0' ∧
      number.sign.contains c = false ∧ number.digit.contains c = false ∧
      number.separator.contains c = false ∧ number.point.contains c = false ∧
      discards.contains c = false := by
    rcases isMark_iff.mp hc with rfl | rfl | rfl | rfl | rfl | rfl <;> decide
  have hlongest : (WordTree.ofWords words).longest (c :: rest) = 1 := by
    rcases isMark_iff.mp hc with rfl | rfl | rfl | rfl | rfl | rfl <;> rfl
  have hcurrent := current?_of_upcoming hup
  have hmiss : ∃ t, number.scan (Rule.evalLead flags none) (Rule.evalFirst flags []) s =
      .ok (false, t) ∧ s.Restores t :=
    Numeral.exists_miss (fun _ => rfl) rfl hs hcurrent hzero hsign hdigit hseparator hpoint
  obtain ⟨t, ht, hrestores⟩ := hmiss
  have hup' : t.upcoming.chars = c :: rest := (congrArg View.upcoming hrestores.view).trans hup
  have hkeep := decodes_keep (current?_of_upcoming hup')
  have hspells := (hrestores.isFresh hs).spells_of_unlabelled hkeep
  rw [← String.singleton_eq_ofList] at hspells
  refine finds_of_spells hs hup hblank (read_of_evalFirst ?_)
    { hspells with consumes := hrestores.consumes hspells.consumes }
  have hattempt : ({ words := .ofWords words } : LiteralRule).attempt t = some t.keep := by
    simp only [LiteralRule.attempt, LiteralRule.longest, hup', hlongest]
    rfl
  have hquote : s.current? ≠ some '\x22' := by
    rw [hcurrent]
    simpa using hmark
  rw [evalFirst_of_not_string hquote, Rule.evalFirst_cons, Rule.eval_number, ht]
  change Rule.evalFirst flags [.literal { words := .ofWords words }] t = _
  rw [Rule.evalFirst_cons, Rule.eval_literal, hattempt]
  rfl

/-! ### All lexemes -/

/-- The tokens are the lexemes, and have no diagnostics. -/
def Yields (flags : Flags) (s : Scanner) (ls : List Lexeme) : Prop :=
  ∃ tokens, lexicon.Run flags s tokens ∧ tokens.map Token.lexeme = ls ∧
    ∀ token ∈ tokens, token.diagnostics = []

theorem Finds.yields {l : Lexeme} {ls : List Lexeme} (h : Finds flags s l rest) (hs : s.IsClean)
    (hrest : ∀ t : Scanner, t.IsFresh → t.IsClean → t.upcoming.chars = rest → Yields flags t ls) :
    Yields flags s (l :: ls) := by
  obtain ⟨token, t, hnext, hmore, hlexeme, hproblems, ht, hclean, hup⟩ := h
  obtain ⟨tokens, hrun, hlexemes, hall⟩ := hrest t ht (hclean hs) hup
  refine ⟨token :: tokens, .token hnext hmore hrun, ?_, List.forall_mem_cons.mpr ⟨hproblems, hall⟩⟩
  rw [List.map_cons, hlexeme, hlexemes]

/-- The tokens of a layout are its lexemes. -/
theorem yields_of_layout {ls : List Lexeme} {text : List Char} (h : Layout ls text)
    (hs : s.IsFresh) (hclean : s.IsClean) (hup : s.upcoming.chars = text) : Yields flags s ls := by
  induction h generalizing s with
  | nil =>
    have hrun : lexicon.Run flags s [] := by
      refine Lexicon.run_of_discarded rfl hs hclean fun c hc => ?_
      rw [hup] at hc
      exact absurd hc List.not_mem_nil
    exact ⟨[], hrun, rfl, List.forall_mem_nil _⟩
  | @blank c ls rest hc _ ih =>
    have hcurrent := current?_of_upcoming hup
    have hblank : lexicon.discards.contains c = true := List.contains_iff_mem.mpr hc
    have hrest : s.discard.upcoming.chars = rest := by
      rw [upcoming_discard hcurrent, hup, List.tail_cons]
    have hpass := passes_discard hcurrent
    obtain ⟨tokens, hrun, htokens⟩ := ih hpass.isFresh (hpass.isClean hclean) hrest
    exact ⟨tokens, .congr (fits_lexicon.next_discard rfl hs hcurrent hblank) hrun, htokens⟩
  | mark hc _ ih => exact (finds_mark flags hs hc hup).yields hclean fun _ => ih
  | text v _ ih => exact (finds_text flags hs v hup).yields hclean fun _ => ih
  | number n hrest _ ih =>
    exact (finds_number flags hs n hrest hup).yields hclean fun _ => ih

theorem exists_tokens_of_layout (flags : Flags) (name : String) {ls : List Lexeme} {text : String}
    (h : Layout ls text.toList) :
    ∃ tokens, lexicon.tokens flags (ofString name text) = .ok tokens ∧
      tokens.map Token.lexeme = ls ∧ ∀ token ∈ tokens, token.diagnostics = [] := by
  have hfresh : (ofString name text).IsFresh := isFresh_ofSource ..
  obtain ⟨tokens, hrun, htokens⟩ :=
    yields_of_layout h hfresh (isClean_ofString name text) (upcoming_ofString name text)
  exact ⟨tokens, fits_lexicon.tokens_eq_of_run hfresh hrun, htokens⟩

/-- Both written forms of a list of tokens are read back as the lexemes of the list, without
diagnostics. -/
theorem wire_read_back (flags : Flags) (name : String) (tokens : List Token) :
    ∃ compact pretty,
      lexicon.tokens flags (ofString name (Token.wireAll tokens).compact) = .ok compact ∧
      lexicon.tokens flags (ofString name (Token.wireAll tokens).pretty) = .ok pretty ∧
      compact.map Token.lexeme = Token.allLexemes tokens ∧
      pretty.map Token.lexeme = Token.allLexemes tokens ∧
      ∀ token ∈ compact ++ pretty, token.diagnostics = [] := by
  obtain ⟨compact, hcompact, hlexemes, hproblems⟩ :=
    exists_tokens_of_layout flags name (Token.wireAll tokens).layout_compact
  obtain ⟨pretty, hpretty, hlexemes', hproblems'⟩ :=
    exists_tokens_of_layout flags name (Token.wireAll tokens).layout_pretty
  rw [Token.lexemes_wireAll] at hlexemes hlexemes'
  exact ⟨compact, pretty, hcompact, hpretty, hlexemes, hlexemes',
    List.forall_mem_append.mpr ⟨hproblems, hproblems'⟩⟩

end Language.Json

end Lexing
