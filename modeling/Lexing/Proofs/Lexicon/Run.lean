import Lexing.Proofs.Lexicon.Lookahead
import Lexing.Proofs.Lexicon.Scan

/-!
# Runs of a lexicon

A run calls for the next token again and again until the end of the text is found. A token stream
hands out the tokens of the run.

A run of a lexicon that fits a profile is finite: every call that does not find the end moves on in
the text or reports a failure, and a failure is reported once. Repeated calls come to the end of the
text, or to a fault because of a piece of the text that is too long to be dropped.

## Main definitions

* `Lexicon.Run` : the tokens of repeated calls.
* `Lexicon.Breaks` : repeated calls that come to a fault.
* `Scanner.effort` : a bound on the number of tokens.

## Main results

* `Lexicon.Fits.run_or_breaks`, `Lexicon.Fits.exists_run` : runs exist.
* `Lexicon.Fits.length_le_of_run` : runs are finite.
* `Lexicon.Fits.tokens_eq_iff` : the tokens of a lexicon are those of a run.
* `Lexicon.Fits.tokens_eq_of_breaks` : there are no tokens if calls come to a fault.
-/

namespace Lexing

open Scanner

/-! ### Runs -/

/-- Repeated calls for the next token from `s` give the tokens of the list, and then the end. -/
inductive Lexicon.Run (x : Lexicon) (flags : Flags) : Scanner → List Token → Prop
  | ended {s t : Scanner} {token : Token} (h : x.next flags s = .ok (token, t))
      (hend : token.isEnd = true) : Run x flags s []
  | token {s t : Scanner} {token : Token} {tokens : List Token}
      (h : x.next flags s = .ok (token, t)) (hmore : token.isEnd = false)
      (ht : Run x flags t tokens) : Run x flags s (token :: tokens)

/-- Repeated calls for the next token from `s` give the tokens of the list, and then the fault. -/
inductive Lexicon.Breaks (x : Lexicon) (flags : Flags) : Scanner → List Token → Fault → Prop
  | fault {s : Scanner} {fault : Fault} (h : x.next flags s = .error fault) :
      Breaks x flags s [] fault
  | token {s t : Scanner} {token : Token} {tokens : List Token} {fault : Fault}
      (h : x.next flags s = .ok (token, t)) (hmore : token.isEnd = false)
      (ht : Breaks x flags t tokens fault) : Breaks x flags s (token :: tokens) fault

/-- A run depends on its scanner only through the next token. -/
theorem Lexicon.Run.congr {x : Lexicon} {flags : Flags} {s t : Scanner} {tokens : List Token}
    (h : x.next flags s = x.next flags t) (ht : x.Run flags t tokens) : x.Run flags s tokens := by
  cases ht with
  | ended hnext hend => exact .ended (h.trans hnext) hend
  | token hnext hmore hrun => exact .token (h.trans hnext) hmore hrun

theorem Lexicon.run_congr {x : Lexicon} {flags : Flags} {s t : Scanner} {tokens : List Token}
    (h : x.next flags s = x.next flags t) : x.Run flags s tokens ↔ x.Run flags t tokens :=
  ⟨.congr h.symm, .congr h⟩

/-- A run that begins with a token goes on after it. -/
theorem Lexicon.Run.of_next {x : Lexicon} {flags : Flags} {s t : Scanner} {token : Token}
    {tokens : List Token} (h : x.Run flags s tokens) (hnext : x.next flags s = .ok (token, t))
    (hmore : token.isEnd = false) : ∃ rest, tokens = token :: rest ∧ x.Run flags t rest := by
  cases h with
  | ended hnext' hend =>
    obtain ⟨rfl, -⟩ := Prod.mk.inj (Except.ok.inj (hnext.symm.trans hnext'))
    exact absurd (hend.symm.trans hmore) Bool.noConfusion
  | @token _ _ _ rest hnext' _ hrest =>
    obtain ⟨rfl, rfl⟩ := Prod.mk.inj (Except.ok.inj (hnext.symm.trans hnext'))
    exact ⟨rest, rfl, hrest⟩

/-- A run from a call that gives a token begins with it. -/
theorem Lexicon.run_iff_of_next {x : Lexicon} {flags : Flags} {s t : Scanner} {token : Token}
    {tokens : List Token} (hnext : x.next flags s = .ok (token, t)) (hmore : token.isEnd = false) :
    x.Run flags s tokens ↔ ∃ rest, tokens = token :: rest ∧ x.Run flags t rest := by
  refine ⟨fun h => h.of_next hnext hmore, ?_⟩
  rintro ⟨rest, rfl, hrest⟩
  exact .token hnext hmore hrest

/-- A scanner has no run if the first call is a fault. -/
theorem Lexicon.not_run_of_next {x : Lexicon} {flags : Flags} {s : Scanner} {fault : Fault}
    {tokens : List Token} (hnext : x.next flags s = .error fault) : ¬x.Run flags s tokens := by
  intro h
  cases h with
  | ended hnext' => cases hnext.symm.trans hnext'
  | token hnext' => cases hnext.symm.trans hnext'

/-- A scanner has one run. -/
theorem Lexicon.Run.unique {x : Lexicon} {flags : Flags} {s : Scanner} {tokens tokens' : List Token}
    (h : x.Run flags s tokens) (h' : x.Run flags s tokens') : tokens = tokens' := by
  induction h generalizing tokens' with
  | ended hnext hend =>
    cases h' with
    | ended => rfl
    | token hnext' hmore =>
      obtain ⟨rfl, -⟩ := Prod.mk.inj (Except.ok.inj (hnext.symm.trans hnext'))
      exact absurd (hend.symm.trans hmore) Bool.noConfusion
  | token hnext hmore _ ih =>
    obtain ⟨rest, rfl, hrest⟩ := h'.of_next hnext hmore
    rw [ih hrest]

theorem Lexicon.Run.exists_exhausts {x : Lexicon} {flags : Flags} {s : Scanner}
    {tokens : List Token} (h : x.Run flags s tokens) :
    ∃ last t, x.Exhausts flags s tokens last t := by
  induction h with
  | ended hnext hend => exact ⟨_, _, .ended hnext hend⟩
  | token hnext hmore _ ih =>
    obtain ⟨last, t, ht⟩ := ih
    exact ⟨last, t, .token hnext hmore ht⟩

theorem Lexicon.Exhausts.run {x : Lexicon} {flags : Flags} {s t : Scanner} {tokens : List Token}
    {last : Token} (h : x.Exhausts flags s tokens last t) : x.Run flags s tokens := by
  induction h with
  | ended hnext hend => exact .ended hnext hend
  | token hnext hmore _ ih => exact .token hnext hmore ih

/-! ### Finite runs -/

/-- A bound on the number of tokens: one for each upcoming code point, and one for a failure. -/
def Scanner.effort (s : Scanner) : Nat :=
  s.upcoming.chars.length + if s.IsClean then 0 else 1

theorem Scanner.effort_lt_allowance (s : Scanner) : s.effort < s.allowance := by
  have h := s.two_mul_length_lt_allowance
  unfold effort
  split <;> omega

/-- A scanner that has less text and no new failure has less to do. -/
theorem Scanner.effort_lt {s t : Scanner}
    (hlength : t.upcoming.chars.length < s.upcoming.chars.length)
    (hclean : s.IsClean → t.IsClean) : t.effort < s.effort := by
  unfold effort
  by_cases hs : s.IsClean
  · rw [if_pos hs, if_pos (hclean hs)]
    exact hlength
  · rw [if_neg hs]
    split <;> omega

namespace Lexicon

variable {x : Lexicon} {flags : Flags} {p : Profile} {s t : Scanner} {token : Token}
  {tokens : List Token}

theorem accept_eq (token : Token) (s : Scanner) :
    (accept token s).2 = { s with
      previousKind := if token.kind = Kind.comment then s.previousKind else token.kind } := by
  unfold accept
  split <;> rfl

/-- A call that does not find the end leaves a fresh scanner and less to do. -/
theorem Step.effort_lt (h : x.Step p s token t) (hmore : token.isEnd = false) :
    t.IsFresh ∧ t.effort < s.effort := by
  cases h with
  | @token _ u hb =>
    have hlength := hb.length_lt
    obtain ⟨-, hg, -, ht, -, -, -, -⟩ := hb
    rw [accept_eq]
    exact ⟨ht.isFresh, Scanner.effort_lt hlength (ht.isClean ∘ hg.isClean)⟩
  | @failure u report hc hend hf =>
    have hnotClean : ¬s.IsClean := fun hs => by simp [(hc.isClean hs).1] at hf
    have hnil : u.upcoming.chars = [] := by simpa [atEnd_eq] using hend
    have hempty : u.window.text.chars.length ≤ 1 := by
      rw [show u.window.text.chars = [] from hnil]
      exact Nat.zero_le 1
    have hclean : (u.emitFailure report).2.IsClean := ⟨rfl, Window.ending_eq_none hempty⟩
    have hafter : (u.emitFailure report).2.upcoming.chars = [] := hnil
    refine ⟨⟨rfl, rfl⟩, ?_⟩
    rw [effort, effort, if_pos hclean, if_neg hnotClean, hafter]
    exact Nat.zero_lt_succ _
  | ended hc hend hf htoken => simp [htoken] at hmore

/-- A call that does not find the end moves on in the text. -/
theorem Step.exists_upcoming (h : x.Step p s token t) (hmore : token.isEnd = false) :
    ∃ g, s.upcoming.chars = g ++ t.upcoming.chars ∧ t.position = s.position.advanceAll g := by
  cases h with
  | token hb =>
    obtain ⟨-, hg, -, ht, -, -, -, -⟩ := hb
    rw [accept_eq]
    exact ⟨_, (hg.trans ht).upcoming, (hg.trans ht).position⟩
  | failure hc =>
    obtain ⟨g, hg, -⟩ := hc
    exact ⟨g, hg.upcoming, hg.position⟩
  | ended _ _ _ htoken => simp [htoken] at hmore

theorem Step.suffix (h : x.Step p s token t) (hmore : token.isEnd = false) :
    t.upcoming.chars <:+ s.upcoming.chars := by
  obtain ⟨g, hg, -⟩ := h.exists_upcoming hmore
  exact ⟨g, hg.symm⟩

/-- From every fresh scanner there is a run, or the calls come to a fault because a piece of the
text is too long. -/
theorem Fits.run_or_breaks (hx : x.Fits flags p) (hs : s.IsFresh) :
    (∃ tokens, x.Run flags s tokens) ∨
      ∃ tokens fault, x.Breaks flags s tokens fault ∧ x.ComesRound p s fault := by
  generalize heffort : s.effort = n
  induction n using Nat.strongRecOn generalizing s with
  | ind n ih =>
    rcases hx.next_cases hs with ⟨token, t, hnext, hstep⟩ | ⟨fault, hfault, hround⟩
    · cases hmore : token.isEnd with
      | true => exact .inl ⟨[], .ended hnext hmore⟩
      | false =>
        obtain ⟨hfresh, hlt⟩ := hstep.effort_lt hmore
        obtain ⟨g, hup, hposition⟩ := hstep.exists_upcoming hmore
        rcases ih t.effort (heffort ▸ hlt) hfresh rfl with
          ⟨tokens, hrun⟩ | ⟨tokens, fault, hbreaks, hround⟩
        · exact .inl ⟨token :: tokens, .token hnext hmore hrun⟩
        · exact .inr ⟨token :: tokens, fault, .token hnext hmore hbreaks,
            hround.of_upcoming hup hposition⟩
    · exact .inr ⟨[], fault, .fault hfault, hround⟩

/-- A run exists from every fresh scanner, if no piece of the text is too long. -/
theorem Fits.exists_run (hx : x.Fits flags p) (hs : s.IsFresh)
    (hvisible : x.DropsVisibly p s.upcoming.chars) : ∃ tokens, x.Run flags s tokens := by
  refine (hx.run_or_breaks hs).resolve_right ?_
  rintro ⟨tokens, fault, -, hround⟩
  exact hround.not_dropsVisibly hvisible

/-- A run has no more tokens than the effort allows. -/
theorem Fits.length_le_of_run (hx : x.Fits flags p) (hs : s.IsFresh) (h : x.Run flags s tokens) :
    tokens.length ≤ s.effort := by
  induction h with
  | ended => exact Nat.zero_le _
  | token hnext hmore hrun ih =>
    obtain ⟨hfresh, hlt⟩ := (hx.step_of_next hs hnext).effort_lt hmore
    exact Nat.lt_of_le_of_lt (ih hfresh) hlt

/-- What holds of every token that brings its literal, and of every report of a failure, holds of
all tokens of a run. -/
theorem Fits.forall_mem_of_run (hx : x.Fits flags p) {P : Token → Prop}
    (hmakes : ∀ {previous token w rest}, Makes p previous token w rest → token.isBlank = false →
      token.literal = String.ofList w → P token)
    (hreport : ∀ (s : Scanner) (report : Diagnostic), P (s.emitFailure report).1)
    (hs : s.IsFresh) (h : x.Run flags s tokens) : ∀ token ∈ tokens, P token := by
  induction h with
  | ended => simp
  | token hnext hmore _ ih =>
    have hstep := hx.step_of_next hs hnext
    refine List.forall_mem_cons.mpr ⟨?_, ih (hstep.effort_lt hmore).1⟩
    cases hstep with
    | token hbrings =>
      obtain ⟨-, -, -, -, hmade, hblank, hliteral, -⟩ := hbrings
      exact hmakes hmade hblank hliteral
    | failure => exact hreport _ _
    | ended _ _ _ hend => exact absurd (hend.symm.trans hmore) Bool.noConfusion

/-- The stream of a scanner has the patience to hand out all tokens. -/
theorem Fits.length_le_ofScanner (hx : x.Fits flags p) (hs : s.IsFresh) {ts : TokenStream}
    (h : x.Run flags s tokens) (hts : TokenStream.ofScanner x flags s = .ok ts) :
    tokens.length ≤ ts.scanner.allowance + 2 := by
  cases h with
  | ended => exact Nat.zero_le _
  | @token _ t token _ hnext hmore hrun =>
    obtain ⟨ht, -⟩ := (hx.step_of_next hs hnext).effort_lt hmore
    cases hrun with
    | ended => simp
    | @token _ u after rest hafter hmore' hrest =>
      obtain ⟨hu, -⟩ := (hx.step_of_next ht hafter).effort_lt hmore'
      rw [TokenStream.ofScanner, hnext] at hts
      change (TokenStream.tokenAfter x flags token t >>= _) = _ at hts
      rw [TokenStream.tokenAfter_of_not_isEnd hmore, hafter] at hts
      obtain rfl : _ = ts := Except.ok.inj hts
      have hlength := hx.length_le_of_run hu hrest
      have hallowance := u.effort_lt_allowance
      simp only [List.length_cons]
      omega

/-- The stream of a scanner hands out all tokens before the end. -/
theorem Fits.exists_all (hx : x.Fits flags p) (hs : s.IsFresh) {last : Token}
    (h : x.Exhausts flags s tokens last t) :
    ∃ ts ts', TokenStream.ofScanner x flags s = .ok ts ∧ ts.all flags = .ok (tokens, ts') ∧
      TokenStream.StandsAt x flags tokens last t tokens.length ts' := by
  obtain ⟨ts, hts, hstands⟩ := TokenStream.standsAt_ofScanner h
  have hlength := hx.length_le_ofScanner hs h.run hts
  obtain ⟨ts', hall, hts'⟩ := hstands.allWithin (ts.scanner.allowance + 2) (by omega)
  exact ⟨ts, ts', hts, hall, by simpa using hts'⟩

/-- The tokens of a lexicon are those of its run. -/
theorem Fits.tokens_eq_of_run (hx : x.Fits flags p) (hs : s.IsFresh) (h : x.Run flags s tokens) :
    x.tokens flags s = .ok tokens := by
  obtain ⟨last, t, hexhausts⟩ := h.exists_exhausts
  obtain ⟨ts, ts', hts, hall, -⟩ := hx.exists_all hs hexhausts
  rw [Lexicon.tokens, hts]
  change (ts.all flags >>= _) = _
  rw [hall]
  rfl

/-! ### Calls that come to a fault -/

/-- Before a fault there are no more tokens than the effort allows. -/
theorem Fits.length_le_of_breaks (hx : x.Fits flags p) (hs : s.IsFresh) {fault : Fault}
    (h : x.Breaks flags s tokens fault) : tokens.length ≤ s.effort := by
  induction h with
  | fault => exact Nat.zero_le _
  | token hnext hmore _ ih =>
    obtain ⟨hfresh, hlt⟩ := (hx.step_of_next hs hnext).effort_lt hmore
    exact Nat.lt_of_le_of_lt (ih hfresh) hlt

/-- A stream that shows two tokens hands out the first of them and scans another one. -/
theorem takeOnto_succ {current following : Token} (hcurrent : current.isEnd = false)
    (hfollowing : following.isEnd = false) (taken : Array Token) (n : Nat) :
    TokenStream.takeOnto flags (n + 1) taken ⟨x, s, current, following⟩ =
      x.next flags s >>= fun out =>
        TokenStream.takeOnto flags n (taken.push current) ⟨x, out.2, following, out.1⟩ := by
  rw [TokenStream.takeOnto, TokenStream.next?, TokenStream.hasMore, hcurrent, Bool.not_false,
    if_pos rfl, TokenStream.advance, TokenStream.tokenAfter_of_not_isEnd hfollowing]
  cases x.next flags s <;> rfl

/-- A stream that shows two tokens comes to the fault after handing out those before it. -/
theorem takeOnto_of_breaks {fault : Fault} (h : x.Breaks flags s tokens fault)
    {current following : Token} (hcurrent : current.isEnd = false)
    (hfollowing : following.isEnd = false) (taken : Array Token) {n : Nat}
    (hn : tokens.length < n) :
    TokenStream.takeOnto flags n taken ⟨x, s, current, following⟩ = .error fault := by
  induction h generalizing current following taken n with
  | fault hnext =>
    obtain ⟨n, rfl⟩ : ∃ k, n = k + 1 := Nat.exists_eq_add_one.mpr hn
    rw [takeOnto_succ hcurrent hfollowing, hnext]
    rfl
  | token hnext hmore _ ih =>
    obtain ⟨n, rfl⟩ : ∃ k, n = k + 1 := Nat.exists_eq_add_one.mpr (Nat.zero_lt_of_lt hn)
    rw [takeOnto_succ hcurrent hfollowing, hnext]
    exact ih hfollowing hmore _ (Nat.lt_of_succ_lt_succ hn)

/-- There are no tokens if the calls come to a fault. -/
theorem Fits.tokens_eq_of_breaks (hx : x.Fits flags p) (hs : s.IsFresh) {fault : Fault}
    (h : x.Breaks flags s tokens fault) : x.tokens flags s = .error fault := by
  rw [Lexicon.tokens, TokenStream.ofScanner]
  cases h with
  | fault hnext =>
    rw [hnext]
    rfl
  | @token _ t token _ _ hnext hmore hrest =>
    rw [hnext]
    change ((TokenStream.tokenAfter x flags token t >>= _) >>= _) = _
    rw [TokenStream.tokenAfter_of_not_isEnd hmore]
    cases hrest with
    | fault hnext' =>
      rw [hnext']
      rfl
    | @token _ u after rest _ hnext' hmore' hbreaks =>
      have ht := ((hx.step_of_next hs hnext).effort_lt hmore).1
      have hu := ((hx.step_of_next ht hnext').effort_lt hmore').1
      have hlength := hx.length_le_of_breaks hu hbreaks
      have hallowance := u.effort_lt_allowance
      rw [hnext']
      change (TokenStream.takeOnto flags (u.allowance + 2) #[] ⟨x, u, token, after⟩ >>= _) >>= _ = _
      rw [takeOnto_of_breaks hbreaks hmore hmore' _ (by omega)]
      rfl

/-- The tokens of a lexicon are those of a run. -/
theorem Fits.tokens_eq_iff (hx : x.Fits flags p) (hs : s.IsFresh) :
    x.tokens flags s = .ok tokens ↔ x.Run flags s tokens := by
  refine ⟨fun h => ?_, hx.tokens_eq_of_run hs⟩
  rcases hx.run_or_breaks hs with ⟨tokens', hrun⟩ | ⟨_, fault, hbreaks, -⟩
  · obtain rfl := Except.ok.inj (h.symm.trans (hx.tokens_eq_of_run hs hrun))
    exact hrun
  · cases h.symm.trans (hx.tokens_eq_of_breaks hs hbreaks)

/-- The tokens of a lexicon exist, if no piece of the text is too long. -/
theorem Fits.exists_tokens (hx : x.Fits flags p) (hs : s.IsFresh)
    (hvisible : x.DropsVisibly p s.upcoming.chars) :
    ∃ tokens, x.tokens flags s = .ok tokens ∧ x.Run flags s tokens := by
  obtain ⟨tokens, hrun⟩ := hx.exists_run hs hvisible
  exact ⟨tokens, hx.tokens_eq_of_run hs hrun, hrun⟩

end Lexicon

end Lexing
