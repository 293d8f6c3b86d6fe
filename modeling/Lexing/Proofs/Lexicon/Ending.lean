import Lexing.Proofs.Lexicon.Coverage

/-!
# Where a token stream ends

A token stream ends at a token of the kind `Kind.endOfText`. The scanner makes such a token where
the text ends. But a token that was given no kind has its value as kind, so that a keyword or a
literal `end` is taken for the end of the text, wherever it stands.

For lexicons of built-in rules that are not told to give the kind of the end, this is the only way
in which a stream can end too early: the last token has an empty literal, and then the tokens handed
out and the pieces that were dropped make up the whole text; or it has the value `end`.

## Main definitions

* `TokenStream.Reached` : the streams that calls lead to.
* `TokenStream.Place`, `TokenStream.Standing` : where a stream stands in the text.

## Main results

* `TokenStream.Standing.advance` : one call.
* `TokenStream.Reached.standing` : any number of calls.
-/

namespace Lexing.TokenStream

open Scanner Lexicon

variable {x : Lexicon} {flags : Flags} {s t : Scanner} {text : List Char} {token : Token}
  {tokens : List Token} {ts ts' : TokenStream}

/-- Calls lead from a scanner to the stream, and they hand out the tokens of the list. -/
inductive Reached (x : Lexicon) (s : Scanner) : List Token → TokenStream → Prop
  | ofScanner {flags : Flags} {ts : TokenStream} (h : ofScanner x flags s = .ok ts) :
      Reached x s [] ts
  | advance {flags : Flags} {tokens : List Token} {token : Token} {ts ts' : TokenStream}
      (h : Reached x s tokens ts) (ht : ts.advance flags = .ok (token, ts')) :
      Reached x s (tokens ++ [token]) ts'
  | next? {flags : Flags} {tokens : List Token} {result : Option Token} {ts ts' : TokenStream}
      (h : Reached x s tokens ts) (ht : ts.next? flags = .ok (result, ts')) :
      Reached x s (tokens ++ result.toList) ts'

/-- Where a stream stands that has handed out the tokens of a list: before a token, at the end of
the text, or at a token that is taken for the end because of its value. -/
inductive Place (x : Lexicon) (text : List Char) (tokens : List Token) (ts : TokenStream) : Prop
  | shows {rest : List Char} (hmore : ts.current.isEnd = false)
      (hcovers : x.Covers text (tokens ++ [ts.current]) rest)
      (h : x.Yields rest ts.following ts.scanner.upcoming.chars)
  | ended {rest : List Char} (hfollowing : ts.following = ts.current)
      (hend : ts.current.isEnd = true) (hcovers : x.Covers text tokens rest)
      (hgap : Gap x.Dropped rest []) (hscanner : ts.scanner.upcoming.chars = [])
      (hliteral : ts.current.literal = "")
  | forged (hfollowing : ts.following = ts.current) (hend : ts.current.isEnd = true)
      (hvalue : ts.current.value = Kind.endOfText) (hliteral : ts.current.literal ≠ "")

/-- The stream makes the tokens of a text by the lexicon `x`, and has handed out those of a list. -/
structure Standing (x : Lexicon) (text : List Char) (tokens : List Token) (ts : TokenStream) :
    Prop where
  lexicon : ts.lexicon = x
  isFresh : ts.scanner.IsFresh
  place : Place x text tokens ts

/-- A stream that has come to show a token stands before it, or at the end if the token is taken for
the end. -/
theorem standing_of_yields (hx : x.Gives (· ≠ Kind.endOfText)) {rest : List Char} {after : Token}
    (hcovers : x.Covers text tokens rest) (hyields : x.Yields rest token s.upcoming.chars)
    (hs : s.IsFresh) (hafter : tokenAfter x flags token s = .ok (after, t)) :
    Standing x text tokens ⟨x, t, token, after⟩ := by
  rcases hyields with ⟨hmore, rfl, hgap, hliteral⟩ | ⟨hend, hgap, hrest, hliteral⟩ |
    ⟨hend, hvalue, hliteral⟩
  · rw [tokenAfter_of_not_isEnd hmore] at hafter
    obtain ⟨hyields', hfresh⟩ := hx.yields_next hs hafter
    exact ⟨rfl, hfresh, .shows hmore (hcovers.snoc hgap hliteral) hyields'⟩
  · rw [tokenAfter_of_isEnd hend] at hafter
    obtain ⟨rfl, rfl⟩ := Prod.mk.inj (Except.ok.inj hafter)
    exact ⟨rfl, hs, .ended rfl hend hcovers hgap hrest hliteral⟩
  · rw [tokenAfter_of_isEnd hend] at hafter
    obtain ⟨rfl, rfl⟩ := Prod.mk.inj (Except.ok.inj hafter)
    exact ⟨rfl, hs, .forged rfl hend hvalue hliteral⟩

/-- The stream of a scanner stands at the beginning of its text. -/
theorem standing_ofScanner (hx : x.Gives (· ≠ Kind.endOfText)) (hs : s.IsFresh)
    (h : ofScanner x flags s = .ok ts) : Standing x s.upcoming.chars [] ts := by
  obtain ⟨⟨current, u⟩, hu, h⟩ := exists_of_bind_eq_ok h
  obtain ⟨⟨following, v⟩, hv, h⟩ := exists_of_bind_eq_ok h
  obtain rfl := Except.ok.inj h
  obtain ⟨hyields, hfresh⟩ := hx.yields_next hs hu
  exact standing_of_yields hx .nil hyields hfresh hv

/-- One call: the stream moves on by a token, and it stays where it is at the end. -/
theorem Standing.advance (hx : x.Gives (· ≠ Kind.endOfText)) (h : Standing x text tokens ts)
    (ht : ts.advance flags = .ok (token, ts')) : Standing x text (tokens ++ [token]) ts' := by
  obtain ⟨rfl, hfresh, hplace⟩ := h
  obtain ⟨⟨after, u⟩, hafter, ht⟩ := exists_of_bind_eq_ok ht
  obtain ⟨rfl, rfl⟩ := Prod.mk.inj (Except.ok.inj ht)
  rcases hplace with ⟨-, hcovers, hyields⟩ |
    ⟨hfollowing, hend, hcovers, hgap, hscanner, hliteral⟩ | ⟨hfollowing, hend, hvalue, hliteral⟩
  · exact standing_of_yields hx hcovers hyields hfresh hafter
  -- At the end the token shown is handed out, and it is shown again.
  · rw [hfollowing, tokenAfter_of_isEnd hend] at hafter
    obtain ⟨rfl, rfl⟩ := Prod.mk.inj (Except.ok.inj hafter)
    have hagain : ts.lexicon.Covers text (tokens ++ [ts.current]) _ :=
      .snoc (g := []) (w := []) hcovers .nil hliteral
    exact ⟨rfl, hfresh, .ended hfollowing.symm (hfollowing ▸ hend) hagain hgap hscanner
      (hfollowing ▸ hliteral)⟩
  · rw [hfollowing, tokenAfter_of_isEnd hend] at hafter
    obtain ⟨rfl, rfl⟩ := Prod.mk.inj (Except.ok.inj hafter)
    exact ⟨rfl, hfresh, .forged hfollowing.symm (hfollowing ▸ hend) (hfollowing ▸ hvalue)
      (hfollowing ▸ hliteral)⟩

/-- Any number of calls. -/
theorem Reached.standing (hx : x.Gives (· ≠ Kind.endOfText)) (hs : s.IsFresh)
    (h : Reached x s tokens ts) : Standing x s.upcoming.chars tokens ts := by
  induction h with
  | ofScanner h => exact standing_ofScanner hx hs h
  | advance _ ht ih => exact ih.advance hx ht
  | @next? flags tokens result ts ts' _ ht ih =>
    unfold TokenStream.next? at ht
    split at ht
    · obtain ⟨⟨token, ts''⟩, hadvance, ht⟩ := exists_of_bind_eq_ok ht
      obtain ⟨rfl, rfl⟩ := Prod.mk.inj (Except.ok.inj ht)
      exact ih.advance hx hadvance
    · obtain ⟨rfl, rfl⟩ := Prod.mk.inj (Except.ok.inj ht)
      simpa using ih

/-- After any number of calls, let the stream of a lexicon of built-in rules that are not told to
give the kind of the end have no more tokens. If the literal of the token shown is empty, the
scanner has reached the end of the text, and the tokens handed out and the pieces that were dropped
make up the whole text. Otherwise the token shown has the value `end`. -/
theorem ended_of_not_hasMore (hx : x.Gives (· ≠ Kind.endOfText)) {name : String}
    {input : CharStream} (h : Reached x (Scanner.ofStream name input) tokens ts)
    (hmore : ts.hasMore = false) :
    (ts.current.literal = "" → ts.scanner.current? = none ∧
      ∃ rest, x.Covers input.drain.1 tokens rest ∧ Gap x.Dropped rest []) ∧
    (ts.current.literal ≠ "" → ts.current.value = Kind.endOfText) := by
  have hend : ts.current.isEnd = true := by simpa [hasMore] using hmore
  have htext : (Scanner.ofStream name input).upcoming.chars = input.drain.1 := by
    simp [Scanner.ofStream, upcoming]
  obtain ⟨-, -, hplace⟩ := h.standing hx (isFresh_ofStream name input)
  rw [htext] at hplace
  rcases hplace with ⟨hmore', -, -⟩ | ⟨-, -, hcovers, hgap, hscanner, hliteral⟩ |
    ⟨-, -, hvalue, hliteral⟩
  · exact absurd (hmore'.symm.trans hend) Bool.false_ne_true
  · refine ⟨fun _ => ⟨?_, _, hcovers, hgap⟩, fun hne => absurd hliteral hne⟩
    rw [current?_eq, hscanner, List.head?_nil]
  · exact ⟨fun hnil => absurd hnil hliteral, fun _ => hvalue⟩

theorem gives_words (keywords : List String) : (words keywords).Gives (· ≠ Kind.endOfText) where
  rules r hr := by
    have hkind : Kind.identifier ≠ Kind.endOfText := by decide
    exact List.mem_singleton.mp hr ▸ .name hkind
  discardRule := by simp [words]
  beforeToken _ _ := rfl
  afterToken _ _ _ := rfl
  noMatch _ _ := rfl

/-- Without keywords, all words are handed out. -/
theorem ended_of_not_hasMore_wordSample :
    ∃ tokens ts, Reached (words []) (Scanner.ofStream "f" (.ofSource wordSample)) tokens ts ∧
      ts.hasMore = false ∧ tokens.map Token.value = ["a", "end", "b"] ∧
      ts.scanner.current? = none ∧
      ∃ rest, (words []).Covers wordSample.text tokens rest ∧ Gap (words []).Dropped rest [] := by
  obtain ⟨ts₀, t₁, ts₁, t₂, ts₂, t₃, ts₃, h₀, h₁, h₂, h₃, hmore, hliteral, hvalues⟩ :
      ∃ ts₀ t₁ ts₁ t₂ ts₂ t₃ ts₃,
        ofScanner (words []) .off (Scanner.ofStream "f" (.ofSource wordSample)) = .ok ts₀ ∧
        ts₀.advance .off = .ok (t₁, ts₁) ∧ ts₁.advance .off = .ok (t₂, ts₂) ∧
        ts₂.advance .off = .ok (t₃, ts₃) ∧ ts₃.hasMore = false ∧ ts₃.current.literal = "" ∧
        [t₁, t₂, t₃].map Token.value = ["a", "end", "b"] :=
    ⟨_, _, _, _, _, _, _, rfl, rfl, rfl, rfl, rfl, rfl, rfl⟩
  have hreached := (((Reached.ofScanner h₀).advance h₁).advance h₂).advance h₃
  obtain ⟨hscanner, hcovers⟩ := (ended_of_not_hasMore (gives_words []) hreached hmore).1 hliteral
  exact ⟨_, ts₃, hreached, hmore, hvalues, hscanner, hcovers⟩

/-- With the keyword `end`, the stream ends before the text does. -/
theorem text_after_keyword_lost :
    ∃ token ts, (words ["end"]).Gives (· ≠ Kind.endOfText) ∧
      Reached (words ["end"]) (Scanner.ofStream "f" (.ofSource wordSample)) [token] ts ∧
      token.value = "a" ∧ ts.hasMore = false ∧ ts.current.literal = "end" ∧
      ts.scanner.current? = some ' ' := by
  obtain ⟨ts₀, token, ts, h₀, h₁, hvalue, hmore, hliteral, hcurrent⟩ : ∃ ts₀ token ts,
      ofScanner (words ["end"]) .off (Scanner.ofStream "f" (.ofSource wordSample)) = .ok ts₀ ∧
      ts₀.advance .off = .ok (token, ts) ∧ token.value = "a" ∧ ts.hasMore = false ∧
      ts.current.literal = "end" ∧ ts.scanner.current? = some ' ' :=
    ⟨_, _, _, rfl, rfl, rfl, rfl, rfl, rfl⟩
  exact ⟨token, ts, gives_words ["end"], (Reached.ofScanner h₀).advance h₁, hvalue, hmore, hliteral,
    hcurrent⟩

end Lexing.TokenStream
