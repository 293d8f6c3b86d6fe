import Lexing.Proofs.Lexicon.Run
import Lexing.Proofs.Rule.Revision

/-!
# Flags that change between tokens

The flags of a scan are not part of the scanner. Whoever asks a stream for tokens may set them anew
before each token. A schedule gives the flags of every request: first those under which the stream
was made, then those of the calls for the next token, in order. Because the stream looks ahead, the
flags of a call are not those under which the token that it hands out was scanned.

## Main definitions

* `TokenStream.Drains` : a stream hands out tokens under a schedule up to the end.
* `Lexicon.Hands` : the same for a new stream over a scanner.
* `Lexicon.RunUnder` : repeated calls of the lexicon under a schedule.

## Main results

* `Lexicon.RunUnder.hands`, `Lexicon.Hands.runUnder` : the stream hands out the tokens of a run.
* `Lexicon.exists_runUnder` : runs exist under every schedule.
-/

namespace Lexing

open Scanner

/-- The flags of the requests of a stream, in order. -/
abbrev Schedule := Nat → Flags

namespace Schedule

/-- The flags of the requests after the first one. -/
def rest (schedule : Schedule) : Schedule :=
  fun i => schedule (i + 1)

/-- The flags under which tokens are scanned, if the first two are scanned at the first request. -/
def ahead (schedule : Schedule) : Schedule :=
  fun i => schedule (i - 1)

end Schedule

/-- The stream hands out the tokens of the list, each with a call for the next token under the flags
of the schedule, and then shows the end of the text. -/
inductive TokenStream.Drains : Schedule → TokenStream → List Token → Prop
  | ended {schedule : Schedule} {ts : TokenStream} (h : ts.hasMore = false) : Drains schedule ts []
  | token {schedule : Schedule} {ts ts' : TokenStream} {token : Token} {tokens : List Token}
      (hmore : ts.hasMore = true) (h : ts.advance (schedule 0) = .ok (token, ts'))
      (ht : Drains schedule.rest ts' tokens) : Drains schedule ts (token :: tokens)

/-- A stream over the scanner is made and drained under the flags of the schedule and hands out the
tokens of the list. -/
def Lexicon.Hands (x : Lexicon) (schedule : Schedule) (s : Scanner) (tokens : List Token) : Prop :=
  ∃ ts, TokenStream.ofScanner x (schedule 0) s = .ok ts ∧ ts.Drains schedule.rest tokens

/-- Repeated calls for the next token from `s`, under the flags of the schedule, give the tokens of
the list, and then the end. -/
inductive Lexicon.RunUnder (x : Lexicon) : Schedule → Scanner → List Token → Prop
  | ended {schedule : Schedule} {s t : Scanner} {token : Token}
      (h : x.next (schedule 0) s = .ok (token, t)) (hend : token.isEnd = true) :
      RunUnder x schedule s []
  | token {schedule : Schedule} {s t : Scanner} {token : Token} {tokens : List Token}
      (h : x.next (schedule 0) s = .ok (token, t)) (hmore : token.isEnd = false)
      (ht : RunUnder x schedule.rest t tokens) : RunUnder x schedule s (token :: tokens)

variable {x : Lexicon} {schedule : Schedule} {s : Scanner} {tokens tokens' : List Token}

/-- A run from a call that gives a token begins with it. -/
theorem Lexicon.RunUnder.of_next {token : Token} {t : Scanner} (h : x.RunUnder schedule s tokens)
    (hnext : x.next (schedule 0) s = .ok (token, t)) (hmore : token.isEnd = false) :
    ∃ rest, tokens = token :: rest ∧ x.RunUnder schedule.rest t rest := by
  cases h with
  | ended hnext' hend =>
    obtain ⟨rfl, -⟩ := Prod.mk.inj (Except.ok.inj (hnext.symm.trans hnext'))
    exact absurd (hend.symm.trans hmore) Bool.noConfusion
  | token hnext' _ hrest =>
    obtain ⟨rfl, rfl⟩ := Prod.mk.inj (Except.ok.inj (hnext.symm.trans hnext'))
    exact ⟨_, rfl, hrest⟩

/-- A run from a call that finds the end has no tokens. -/
theorem Lexicon.RunUnder.of_isEnd {token : Token} {t : Scanner} (h : x.RunUnder schedule s tokens)
    (hnext : x.next (schedule 0) s = .ok (token, t)) (hend : token.isEnd = true) : tokens = [] := by
  cases h with
  | ended => rfl
  | token hnext' hmore _ =>
    obtain ⟨rfl, -⟩ := Prod.mk.inj (Except.ok.inj (hnext.symm.trans hnext'))
    exact absurd (hend.symm.trans hmore) Bool.noConfusion

/-- A run depends on its scanner only through the token that the first call gives. -/
theorem Lexicon.RunUnder.congr {t : Scanner} (h : x.RunUnder schedule s tokens)
    (hnext : ∀ out, x.next (schedule 0) s = .ok out → x.next (schedule 0) t = .ok out) :
    x.RunUnder schedule t tokens := by
  cases h with
  | ended hs hend => exact .ended (hnext _ hs) hend
  | token hs hmore hrest => exact .token (hnext _ hs) hmore hrest

/-! ### Streams and runs -/

namespace TokenStream

variable {ts : TokenStream} {flags : Flags}

theorem advance_of_isEnd (h : ts.following.isEnd = true) :
    ts.advance flags = .ok (ts.current, { ts with current := ts.following }) := by
  rw [advance, tokenAfter_of_isEnd h]
  rfl

theorem advance_of_next {token : Token} {t : Scanner} (h : ts.following.isEnd = false)
    (hnext : ts.lexicon.next flags ts.scanner = .ok (token, t)) :
    ts.advance flags =
      .ok (ts.current, { ts with scanner := t, current := ts.following, following := token }) := by
  rw [advance, tokenAfter_of_not_isEnd h, hnext]
  rfl

/-- A stream whose second token is the end hands out its first one. -/
theorem drains_of_isEnd (schedule : Schedule) (hmore : ts.hasMore = true)
    (h : ts.following.isEnd = true) : ts.Drains schedule [ts.current] :=
  .token hmore (advance_of_isEnd h) (.ended (by rw [hasMore, h]; rfl))

/-- A stream hands out the two tokens that it shows and those of the run of its scanner. -/
theorem drains_of_runUnder {current following : Token} (hcurrent : current.isEnd = false)
    (hfollowing : following.isEnd = false) (h : x.RunUnder schedule s tokens) :
    Drains schedule ⟨x, s, current, following⟩ (current :: following :: tokens) := by
  induction h generalizing current following with
  | ended hnext hend =>
    refine .token (by rw [hasMore, hcurrent]; rfl) (advance_of_next hfollowing hnext) ?_
    exact drains_of_isEnd _ (by rw [hasMore, hfollowing]; rfl) hend
  | token hnext hmore _ ih =>
    refine .token (by rw [hasMore, hcurrent]; rfl) (advance_of_next hfollowing hnext) ?_
    exact ih hfollowing hmore

/-- A stream whose first token is the end hands out nothing. -/
theorem Drains.eq_nil (h : ts.Drains schedule tokens) (hend : ts.current.isEnd = true) :
    tokens = [] := by
  cases h with
  | ended => rfl
  | token hmore => simp [hasMore, hend] at hmore

/-- A stream whose first token is not the end hands it out. -/
theorem Drains.exists_advance (h : ts.Drains schedule tokens) (hmore : ts.current.isEnd = false) :
    ∃ after u rest, tokenAfter ts.lexicon (schedule 0) ts.following ts.scanner = .ok (after, u) ∧
      tokens = ts.current :: rest ∧
      Drains schedule.rest ⟨ts.lexicon, u, ts.following, after⟩ rest := by
  cases h with
  | ended hend => simp [hasMore, hmore] at hend
  | @token _ _ _ _ rest _ hadvance hrest =>
    obtain ⟨⟨after, u⟩, hafter, hout⟩ := exists_of_bind_eq_ok hadvance
    obtain ⟨rfl, rfl⟩ := Prod.mk.inj (Except.ok.inj hout)
    exact ⟨after, u, rest, hafter, rfl, hrest⟩

/-- A stream whose second token is the end hands out its first one only. -/
theorem Drains.eq_singleton (h : ts.Drains schedule tokens) (hmore : ts.current.isEnd = false)
    (hend : ts.following.isEnd = true) : tokens = [ts.current] := by
  obtain ⟨after, u, rest, -, rfl, hrest⟩ := h.exists_advance hmore
  rw [hrest.eq_nil hend]

/-- Beyond the two tokens that it shows, a stream hands out those of a run of its scanner. -/
theorem Drains.exists_runUnder {current following : Token} (hcurrent : current.isEnd = false)
    (hfollowing : following.isEnd = false)
    (h : Drains schedule ⟨x, s, current, following⟩ tokens) :
    ∃ rest, tokens = current :: following :: rest ∧ x.RunUnder schedule s rest := by
  induction tokens generalizing schedule s current following with
  | nil =>
    obtain ⟨_, _, _, -, hnil, -⟩ := h.exists_advance hcurrent
    cases hnil
  | cons token tokens ih =>
    obtain ⟨after, u, rest, hafter, htokens, hrest⟩ := h.exists_advance hcurrent
    obtain ⟨rfl, rfl⟩ := List.cons.inj htokens
    rw [tokenAfter_of_not_isEnd hfollowing] at hafter
    cases hend : after.isEnd with
    | true =>
      rw [hrest.eq_singleton hfollowing hend]
      exact ⟨[], rfl, .ended hafter hend⟩
    | false =>
      obtain ⟨more, rfl, hrun⟩ := ih hfollowing hend hrest
      exact ⟨after :: more, rfl, .token hafter hend hrun⟩

end TokenStream

namespace Lexicon

/-- A new stream hands out the tokens of a run, the first two of which are scanned when it is made.
-/
theorem RunUnder.hands (h : x.RunUnder schedule.ahead s tokens) : x.Hands schedule s tokens := by
  cases h with
  | @ended _ _ t token hnext hend =>
    refine ⟨⟨x, t, token, token⟩, ?_, .ended (by rw [TokenStream.hasMore, hend]; rfl)⟩
    rw [TokenStream.ofScanner, show x.next (schedule 0) s = _ from hnext]
    change TokenStream.tokenAfter x (schedule 0) token t >>= _ = _
    rw [TokenStream.tokenAfter_of_isEnd hend]
    rfl
  | @token _ _ t token rest hnext hmore hrun =>
    have hts {after : Token} {u : Scanner} (hafter : x.next (schedule 0) t = .ok (after, u)) :
        TokenStream.ofScanner x (schedule 0) s = .ok ⟨x, u, token, after⟩ := by
      rw [TokenStream.ofScanner, show x.next (schedule 0) s = _ from hnext]
      change TokenStream.tokenAfter x (schedule 0) token t >>= _ = _
      rw [TokenStream.tokenAfter_of_not_isEnd hmore, hafter]
      rfl
    cases hrun with
    | @ended _ _ u after hafter hend =>
      refine ⟨_, hts hafter, TokenStream.drains_of_isEnd _ ?_ hend⟩
      rw [TokenStream.hasMore, hmore]
      rfl
    | @token _ _ u after rest hafter hmore' hrest =>
      exact ⟨_, hts hafter, TokenStream.drains_of_runUnder hmore hmore' hrest⟩

/-- The tokens that a new stream hands out are those of a run. -/
theorem Hands.runUnder (h : x.Hands schedule s tokens) : x.RunUnder schedule.ahead s tokens := by
  obtain ⟨ts, hts, hdrains⟩ := h
  obtain ⟨⟨current, t⟩, hnext, hts⟩ := exists_of_bind_eq_ok hts
  obtain ⟨⟨following, u⟩, hafter, hts⟩ := exists_of_bind_eq_ok hts
  obtain rfl := Except.ok.inj hts
  cases hcurrent : current.isEnd with
  | true =>
    rw [hdrains.eq_nil hcurrent]
    exact .ended hnext hcurrent
  | false =>
    rw [TokenStream.tokenAfter_of_not_isEnd hcurrent] at hafter
    cases hfollowing : following.isEnd with
    | true =>
      rw [hdrains.eq_singleton hcurrent hfollowing]
      exact .token hnext hcurrent (.ended hafter hfollowing)
    | false =>
      obtain ⟨rest, rfl, hrun⟩ := hdrains.exists_runUnder hcurrent hfollowing
      exact .token hnext hcurrent (.token hafter hfollowing hrun)

/-! ### Finite runs -/

/-- A run exists from every fresh scanner and under every schedule, if the lexicon fits a profile
under all flags and no piece of the text is too long. -/
theorem exists_runUnder {p : Flags → Profile} (hx : ∀ flags, x.Fits flags (p flags))
    (schedule : Schedule) (hs : s.IsFresh)
    (hvisible : ∀ i, x.DropsVisibly (p (schedule i)) s.upcoming.chars) :
    ∃ tokens, x.RunUnder schedule s tokens := by
  generalize heffort : s.effort = n
  induction n using Nat.strongRecOn generalizing s schedule with
  | ind n ih =>
    obtain ⟨token, t, hnext, hstep⟩ := (hx (schedule 0)).exists_next hs (hvisible 0)
    cases hmore : token.isEnd with
    | true => exact ⟨[], .ended hnext hmore⟩
    | false =>
      obtain ⟨hfresh, hlt⟩ := hstep.effort_lt hmore
      have hvisible' (i : Nat) := (hvisible (i + 1)).of_suffix (hstep.suffix hmore)
      obtain ⟨tokens, hrun⟩ := ih t.effort (heffort ▸ hlt) schedule.rest hfresh hvisible' rfl
      exact ⟨token :: tokens, .token hnext hmore hrun⟩

end Lexicon

end Lexing
