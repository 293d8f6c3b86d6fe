import Mathlib.Data.List.GetD
import Lexing.TokenStream

/-!
# Looking ahead is invisible

A token stream asks its lexicon for two tokens before it hands out the first one. To its user it is
the plain list of the tokens that repeated calls of the lexicon give, up to the first one that marks
the end of the text, and a number that says how many of them were handed out. The mark of the end is
handed out again and again, and the lexicon is not asked any more.

Nothing is supposed of the lexicon but that the calls up to the mark of the end are no faults. A
stream that asked once more could come to a fault.

## Main definitions

* `Lexicon.Exhausts` : repeated calls for the next token up to the end.
* `TokenStream.Call`, `TokenStream.Return` : what a stream is asked and what it returns.
* `TokenStream.perform`, `TokenStream.Call.ofList` : the returns of a stream and of a list.
* `TokenStream.StandsAt` : the stream has handed out some tokens of a list.

## Main results

* `TokenStream.standsAt_ofScanner` : a new stream has handed out nothing.
* `TokenStream.StandsAt.perform` : one call.
* `TokenStream.StandsAt.performAll` : any sequence of calls.
-/

namespace Lexing

/-- Calls for the next token lead from `s` to `t`. They give the tokens of the list and then `last`,
the first of them that marks the end of the text. -/
inductive Lexicon.Exhausts (x : Lexicon) (flags : Flags) :
    Scanner → List Token → Token → Scanner → Prop
  | ended {s t : Scanner} {last : Token} (h : x.next flags s = .ok (last, t))
      (hend : last.isEnd = true) : Exhausts x flags s [] last t
  | token {s t u : Scanner} {token last : Token} {tokens : List Token}
      (h : x.next flags s = .ok (token, t)) (hmore : token.isEnd = false)
      (ht : Exhausts x flags t tokens last u) : Exhausts x flags s (token :: tokens) last u

namespace Lexicon.Exhausts

variable {x : Lexicon} {flags : Flags} {s t : Scanner} {tokens : List Token} {last : Token}

theorem isEnd_last (h : x.Exhausts flags s tokens last t) : last.isEnd = true := by
  induction h with
  | ended _ hend => exact hend
  | token _ _ _ ih => exact ih

theorem isEnd_of_mem (h : x.Exhausts flags s tokens last t) :
    ∀ token ∈ tokens, token.isEnd = false := by
  induction h with
  | ended => simp
  | token _ hmore _ ih => exact List.forall_mem_cons.mpr ⟨hmore, ih⟩

/-- The token at a place of the list, with the end behind the list, marks the end where the list is
over. -/
theorem isEnd_getD (h : x.Exhausts flags s tokens last t) (j : Nat) :
    (tokens.getD j last).isEnd = !decide (j < tokens.length) := by
  by_cases hj : j < tokens.length
  · rw [List.getD_eq_getElem _ _ hj, h.isEnd_of_mem _ (List.getElem_mem hj)]
    simp [hj]
  · rw [List.getD_eq_default _ _ (Nat.not_lt.mp hj), h.isEnd_last]
    simp [hj]

/-- The first call gives the first token, which is the end if the list is empty. -/
theorem exists_next (h : x.Exhausts flags s tokens last t) :
    ∃ u, x.next flags s = .ok (tokens.getD 0 last, u) ∧
      if 0 < tokens.length then x.Exhausts flags u tokens.tail last t else u = t := by
  cases h with
  | ended h hend => exact ⟨t, h, by simp⟩
  | token h hmore ht => exact ⟨_, h, by simpa using ht⟩

end Lexicon.Exhausts

namespace TokenStream

/-! ### Calls -/

/-- What a token stream may be asked. -/
inductive Call where
  /-- Hands out a token, which may be the end. -/
  | advance
  /-- Hands out a token before the end. -/
  | next?
  /-- Shows the token that is handed out next. -/
  | current
  /-- Shows the token after it. -/
  | following
  /-- Tells whether there is a token before the end. -/
  | hasMore
  /-- Hands out all tokens before the end. -/
  | all
  deriving DecidableEq

/-- What a call returns. -/
inductive Return where
  | token (t : Token)
  | token? (t : Option Token)
  | truth (b : Bool)
  | tokens (ts : List Token)
  deriving DecidableEq

/-- What a stream returns to a call, and the stream after it. -/
def perform (flags : Flags) : Call → TokenStream → Except Fault (Return × TokenStream)
  | .advance, ts => (ts.advance flags).map fun (t, ts) => (.token t, ts)
  | .next?, ts => (ts.next? flags).map fun (t, ts) => (.token? t, ts)
  | .current, ts => .ok (.token ts.current, ts)
  | .following, ts => .ok (.token ts.following, ts)
  | .hasMore, ts => .ok (.truth ts.hasMore, ts)
  | .all, ts => (ts.all flags).map fun (tokens, ts) => (.tokens tokens, ts)

/-- What a stream returns to calls that are made one after another, and the stream after them. -/
def performAll (flags : Flags) : List Call → TokenStream → Except Fault (List Return × TokenStream)
  | [], ts => .ok ([], ts)
  | call :: calls, ts => do
    let (result, ts) ← perform flags call ts
    let (results, ts) ← performAll flags calls ts
    return (result :: results, ts)

/-- What a list of tokens with the token `last` behind it returns to a call after `j` tokens were
handed out, and how many tokens were handed out then. -/
def Call.ofList (tokens : List Token) (last : Token) : Call → Nat → Return × Nat
  | advance, j => (.token (tokens.getD j last), j + 1)
  | next?, j => (.token? tokens[j]?, if j < tokens.length then j + 1 else j)
  | current, j => (.token (tokens.getD j last), j)
  | following, j => (.token (tokens.getD (j + 1) last), j)
  | hasMore, j => (.truth (j < tokens.length), j)
  | all, j => (.tokens (tokens.drop j), max j tokens.length)

/-- What a list of tokens returns to calls that are made one after another. -/
def Call.ofListAll (tokens : List Token) (last : Token) : List Call → Nat → List Return × Nat
  | [], j => ([], j)
  | call :: calls, j =>
    let (result, i) := call.ofList tokens last j
    let (results, i) := ofListAll tokens last calls i
    (result :: results, i)

theorem Call.le_ofList (tokens : List Token) (last : Token) (call : Call) (j : Nat) :
    j ≤ (call.ofList tokens last j).2 := by
  cases call <;> grind [ofList]

theorem Call.le_ofListAll (tokens : List Token) (last : Token) (calls : List Call) (j : Nat) :
    j ≤ (ofListAll tokens last calls j).2 := by
  induction calls generalizing j with
  | nil => exact Nat.le_refl j
  | cons call calls ih => exact Nat.le_trans (call.le_ofList tokens last j) (ih _)

/-- A list that was handed out returns the end again and again. -/
theorem Call.ofListAll_advance {tokens : List Token} {j : Nat} (last : Token) (n : Nat)
    (hj : tokens.length ≤ j) :
    (ofListAll tokens last (List.replicate n .advance) j).1 = List.replicate n (.token last) := by
  induction n generalizing j with
  | zero => rfl
  | succ n ih =>
    have hrest := ih (j := j + 1) (by omega)
    change Return.token (tokens.getD j last) :: _ = _
    rw [List.getD_eq_default tokens last hj, hrest, List.replicate_succ]

/-! ### Where a stream stands -/

variable {x : Lexicon} {flags : Flags} {s t : Scanner} {tokens : List Token} {last : Token}
  {ts : TokenStream} {j : Nat}

/-- The stream has handed out `j` tokens of the list, and the end for those that the list lacks. Its
scanner stands behind the two tokens that it shows, or at `t` if the end is one of them. -/
structure StandsAt (x : Lexicon) (flags : Flags) (tokens : List Token) (last : Token) (t : Scanner)
    (j : Nat) (ts : TokenStream) : Prop where
  isEnd_getD : ∀ i, (tokens.getD i last).isEnd = !decide (i < tokens.length)
  lexicon : ts.lexicon = x
  current : ts.current = tokens.getD j last
  following : ts.following = tokens.getD (j + 1) last
  scanner : if j + 1 < tokens.length then x.Exhausts flags ts.scanner (tokens.drop (j + 2)) last t
    else ts.scanner = t

theorem tokenAfter_of_isEnd {token : Token} (h : token.isEnd = true) :
    tokenAfter x flags token s = .ok (token, s) :=
  if_pos h

theorem tokenAfter_of_not_isEnd {token : Token} (h : token.isEnd = false) :
    tokenAfter x flags token s = x.next flags s :=
  if_neg (by simp [h])

/-- A new stream has handed out nothing. -/
theorem standsAt_ofScanner (h : x.Exhausts flags s tokens last t) :
    ∃ ts, ofScanner x flags s = .ok ts ∧ StandsAt x flags tokens last t 0 ts := by
  obtain ⟨u, hu, hrest⟩ := h.exists_next
  have hfirst := h.isEnd_getD 0
  by_cases hmore : 0 < tokens.length
  · rw [if_pos hmore] at hrest
    obtain ⟨v, hv, hbehind⟩ := hrest.exists_next
    have hsecond : tokens.tail.getD 0 last = tokens.getD 1 last := by simp
    refine ⟨⟨x, v, tokens.getD 0 last, tokens.getD 1 last⟩, ?_, h.isEnd_getD, rfl, rfl, rfl, ?_⟩
    · rw [hsecond] at hv
      rw [decide_eq_true hmore] at hfirst
      rw [ofScanner, hu]
      change (tokenAfter x flags (tokens.getD 0 last) u >>= _) = _
      rw [tokenAfter_of_not_isEnd hfirst, hv]
      rfl
    · simpa [Nat.lt_sub_iff_add_lt, ← List.drop_one, List.drop_drop] using hbehind
  · rw [if_neg hmore] at hrest
    subst hrest
    obtain rfl : tokens = [] := List.eq_nil_of_length_eq_zero (Nat.eq_zero_of_not_pos hmore)
    refine ⟨⟨x, u, last, last⟩, ?_, h.isEnd_getD, rfl, rfl, rfl, by simp⟩
    rw [ofScanner, hu]
    change (tokenAfter x flags last u >>= _) = _
    rw [tokenAfter_of_isEnd h.isEnd_last]
    rfl

namespace StandsAt

/-- There is a token before the end as long as the list is not handed out. -/
theorem hasMore_eq (h : StandsAt x flags tokens last t j ts) :
    ts.hasMore = decide (j < tokens.length) := by
  rw [hasMore, h.current, h.isEnd_getD, Bool.not_not]

/-- One token is handed out. The lexicon is asked only if the second token shown is not the end. -/
theorem advance (h : StandsAt x flags tokens last t j ts) :
    ∃ ts', ts.advance flags = .ok (tokens.getD j last, ts') ∧
      StandsAt x flags tokens last t (j + 1) ts' := by
  obtain ⟨after, u, hafter, htoken, hscanner⟩ : ∃ after u,
      tokenAfter ts.lexicon flags ts.following ts.scanner = .ok (after, u) ∧
        after = tokens.getD (j + 2) last ∧
        if j + 2 < tokens.length then x.Exhausts flags u (tokens.drop (j + 3)) last t
        else u = t := by
    have hend := h.isEnd_getD (j + 1)
    have hrest := h.scanner
    rw [h.lexicon, h.following]
    by_cases hj : j + 1 < tokens.length
    · rw [if_pos hj] at hrest
      rw [decide_eq_true hj] at hend
      obtain ⟨u, hu, hbehind⟩ := hrest.exists_next
      refine ⟨_, u, by rw [tokenAfter_of_not_isEnd hend, hu], by simp, ?_⟩
      rw [List.tail_drop] at hbehind
      simpa [Nat.lt_sub_iff_add_lt] using hbehind
    · rw [if_neg hj] at hrest
      rw [decide_eq_false hj] at hend
      refine ⟨_, _, tokenAfter_of_isEnd hend, ?_, by rw [if_neg (by omega)]; exact hrest⟩
      rw [List.getD_eq_default _ _ (by omega), List.getD_eq_default _ _ (by omega)]
  refine ⟨{ ts with scanner := u, current := ts.following, following := after }, ?_,
    h.isEnd_getD, h.lexicon, h.following, htoken, hscanner⟩
  rw [TokenStream.advance, hafter, h.current]
  rfl

/-- One token before the end is handed out, if there is one. -/
theorem next? (h : StandsAt x flags tokens last t j ts) :
    ∃ ts', ts.next? flags = .ok (tokens[j]?, ts') ∧
      StandsAt x flags tokens last t (if j < tokens.length then j + 1 else j) ts' := by
  by_cases hj : j < tokens.length
  · obtain ⟨ts', hadvance, hts'⟩ := h.advance
    refine ⟨ts', ?_, by rwa [if_pos hj]⟩
    rw [TokenStream.next?, h.hasMore_eq, decide_eq_true hj, if_pos rfl, hadvance,
      List.getElem?_eq_getElem hj, List.getD_eq_getElem _ _ hj]
    rfl
  · refine ⟨ts, ?_, by rwa [if_neg hj]⟩
    rw [TokenStream.next?, h.hasMore_eq, decide_eq_false hj, if_neg Bool.false_ne_true,
      List.getElem?_eq_none (Nat.not_lt.mp hj)]
    rfl

/-- All tokens that are left are handed out if as many are asked for. -/
theorem takeOnto {n : Nat} (taken : Array Token) (h : StandsAt x flags tokens last t j ts)
    (hn : tokens.length ≤ j + n) :
    ∃ ts', takeOnto flags n taken ts = .ok (taken.toList ++ tokens.drop j, ts') ∧
      StandsAt x flags tokens last t (max j tokens.length) ts' := by
  induction n generalizing taken j ts with
  | zero =>
    rw [Nat.add_zero] at hn
    refine ⟨ts, ?_, by rwa [Nat.max_eq_left hn]⟩
    rw [TokenStream.takeOnto, List.drop_eq_nil_of_le hn, List.append_nil]
  | succ n ih =>
    obtain ⟨ts', hnext, hts'⟩ := h.next?
    rw [TokenStream.takeOnto, hnext]
    by_cases hj : j < tokens.length
    · rw [if_pos hj] at hts'
      obtain ⟨ts'', htake, hts''⟩ := ih (taken.push tokens[j]) hts' (by omega)
      refine ⟨ts'', ?_, ?_⟩
      · rw [List.getElem?_eq_getElem hj, List.drop_eq_getElem_cons hj, ← List.singleton_append,
          ← List.append_assoc, ← Array.toList_push]
        exact htake
      · rw [Nat.max_eq_right hj] at hts''
        rwa [Nat.max_eq_right (Nat.le_of_lt hj)]
    · rw [if_neg hj] at hts'
      refine ⟨ts', ?_, by rwa [Nat.max_eq_left (Nat.not_lt.mp hj)]⟩
      rw [List.getElem?_eq_none (Nat.not_lt.mp hj), List.drop_eq_nil_of_le (Nat.not_lt.mp hj),
        List.append_nil]
      rfl

/-- All tokens that are left are handed out within a bound that is not less than their number. -/
theorem allWithin (h : StandsAt x flags tokens last t j ts) (bound : Nat)
    (hbound : tokens.length ≤ j + bound) :
    ∃ ts', ts.allWithin flags bound = .ok (tokens.drop j, ts') ∧
      StandsAt x flags tokens last t (max j tokens.length) ts' := by
  obtain ⟨ts', htake, hts'⟩ := h.takeOnto #[] hbound
  refine ⟨ts', ?_, hts'⟩
  have hmore : ts'.hasMore = false := by
    rw [hts'.hasMore_eq]
    exact decide_eq_false (Nat.not_lt.mpr (Nat.le_max_right ..))
  rw [TokenStream.allWithin, take, htake]
  simp [hmore, bind, Except.bind, pure, Except.pure]

/-- One call returns what the list returns. -/
theorem perform (h : StandsAt x flags tokens last t j ts) (call : Call)
    (hall : call = .all → tokens.length ≤ j + Scanner.patience) :
    ∃ ts', perform flags call ts = .ok ((call.ofList tokens last j).1, ts') ∧
      StandsAt x flags tokens last t (call.ofList tokens last j).2 ts' := by
  cases call with
  | advance =>
    obtain ⟨ts', hadvance, hts'⟩ := h.advance
    exact ⟨ts', by rw [TokenStream.perform, hadvance]; rfl, hts'⟩
  | next? =>
    obtain ⟨ts', hnext, hts'⟩ := h.next?
    exact ⟨ts', by rw [TokenStream.perform, hnext]; rfl, hts'⟩
  | current => exact ⟨ts, by rw [TokenStream.perform, h.current]; rfl, h⟩
  | following => exact ⟨ts, by rw [TokenStream.perform, h.following]; rfl, h⟩
  | hasMore => exact ⟨ts, by rw [TokenStream.perform, h.hasMore_eq]; rfl, h⟩
  | all =>
    have hpatience : Scanner.patience ≤ ts.scanner.allowance := Nat.le_add_right ..
    have hbound : tokens.length ≤ j + (ts.scanner.allowance + 2) := by
      have hlength := hall rfl
      omega
    obtain ⟨ts', hall, hts'⟩ := h.allWithin _ hbound
    exact ⟨ts', by rw [TokenStream.perform, all, hall]; rfl, hts'⟩

/-- Calls that are made one after another return what the list returns. -/
theorem performAll (h : StandsAt x flags tokens last t j ts) (calls : List Call)
    (hall : .all ∈ calls → tokens.length ≤ j + Scanner.patience) :
    ∃ ts', performAll flags calls ts = .ok ((Call.ofListAll tokens last calls j).1, ts') ∧
      StandsAt x flags tokens last t (Call.ofListAll tokens last calls j).2 ts' := by
  induction calls generalizing j ts with
  | nil => exact ⟨ts, rfl, h⟩
  | cons call calls ih =>
    obtain ⟨ts', hperform, hts'⟩ := h.perform call fun hcall =>
      hall (hcall ▸ List.mem_cons_self)
    have hle := call.le_ofList tokens last j
    obtain ⟨ts'', hrest, hts''⟩ := ih hts' fun hmem =>
      Nat.le_trans (hall (List.mem_cons_of_mem _ hmem)) (Nat.add_le_add_right hle _)
    refine ⟨ts'', ?_, hts''⟩
    rw [TokenStream.performAll, hperform]
    change (TokenStream.performAll flags calls ts' >>= _) = _
    rw [hrest]
    rfl

/-- A stream that shows the end does not depend on its lexicon. -/
theorem performAll_of_shows_end (h : StandsAt x flags tokens last t j ts)
    (hj : tokens.length ≤ j + 1) (y : Lexicon) (calls : List Call) :
    ∃ ts', TokenStream.performAll flags calls { ts with lexicon := y } =
        .ok ((Call.ofListAll tokens last calls j).1, ts') ∧ ts'.scanner = t := by
  have hscanner := h.scanner
  rw [if_neg (by omega)] at hscanner
  have hy : StandsAt y flags tokens last t j { ts with lexicon := y } :=
    ⟨h.isEnd_getD, rfl, h.current, h.following, by rw [if_neg (by omega)]; exact hscanner⟩
  have hpatience : 1 ≤ Scanner.patience := by decide
  obtain ⟨ts', hperform, hts'⟩ := hy.performAll calls fun _ => by omega
  have hle := Call.le_ofListAll tokens last calls j
  have hend := hts'.scanner
  rw [if_neg (by omega)] at hend
  exact ⟨ts', hperform, hend⟩

end StandsAt

/-- A token stream is the list of the tokens that repeated calls of its lexicon give up to the end.
Whatever it is asked, and in which order, it returns what the list returns, with the end behind the
list as often as it is asked for. After that it holds the rest of the list. Once it shows the end,
its lexicon is not asked any more: any other lexicon would do, and the scanner stays where the end
was found.

A list that is handed out at once must not be longer than the patience of a scanner. The rest of
the list is handed out within any bound that is not less than its length. -/
theorem returns_of_token_list (h : x.Exhausts flags s tokens last t) :
    ∃ ts, ofScanner x flags s = .ok ts ∧
      ∀ calls : List Call, (.all ∈ calls → tokens.length ≤ Scanner.patience) →
        ∃ returns j ts', Call.ofListAll tokens last calls 0 = (returns, j) ∧
          performAll flags calls ts = .ok (returns, ts') ∧
          (∀ bound, tokens.length ≤ j + bound →
            ∃ ts'', ts'.allWithin flags bound = .ok (tokens.drop j, ts'')) ∧
          (tokens.length ≤ j + 1 → ∀ (y : Lexicon) (further : List Call),
            ∃ ts'', performAll flags further { ts' with lexicon := y } =
              .ok ((Call.ofListAll tokens last further j).1, ts'') ∧ ts''.scanner = t) := by
  obtain ⟨ts, hts, hstands⟩ := standsAt_ofScanner h
  refine ⟨ts, hts, fun calls hall => ?_⟩
  obtain ⟨ts', hperform, hts'⟩ := hstands.performAll calls (by simpa using hall)
  refine ⟨_, _, ts', rfl, hperform, fun bound hbound => ?_, hts'.performAll_of_shows_end⟩
  obtain ⟨ts'', hrest, -⟩ := hts'.allWithin bound hbound
  exact ⟨ts'', hrest⟩

/-- Names between spaces, some of which are keywords. -/
def words (keywords : List String) : Lexicon where
  rules := [.name { keywords }]
  discards := .single ' '

/-- The text `a end b`. -/
def wordSample : ByteSource :=
  { reads := [.bytes [0x61, 0x20, 0x65, 0x6E, 0x64, 0x20, 0x62]] }

/-- A word that is taken for the end stands in the middle of the text. The stream shows it, and does
not go on to the word after it. -/
theorem returns_of_token_list_wordSample :
    ∃ ts ts' token last, ofScanner (words ["end"]) .off
        (Scanner.ofStream "f" (.ofSource wordSample)) = .ok ts ∧
      token.value = "a" ∧ last.value = "end" ∧
      performAll .off [.following, .next?, .next?, .advance, .hasMore, .all, .advance] ts =
        .ok ([.token last, .token? (some token), .token? none, .token last, .truth false,
          .tokens [], .token last], ts') := by
  obtain ⟨token, last, u, t, hnext, hmore, hlast, hend, hvalue, hvalue'⟩ : ∃ token last u t,
      (words ["end"]).next .off (Scanner.ofStream "f" (.ofSource wordSample)) = .ok (token, u) ∧
      token.isEnd = false ∧ (words ["end"]).next .off u = .ok (last, t) ∧ last.isEnd = true ∧
      token.value = "a" ∧ last.value = "end" :=
    ⟨_, _, _, _, rfl, rfl, rfl, rfl, rfl, rfl⟩
  obtain ⟨ts, hts, hreturns⟩ := returns_of_token_list (.token hnext hmore (.ended hlast hend))
  obtain ⟨_, _, ts', hlist, hperform, -, -⟩ := hreturns
    [.following, .next?, .next?, .advance, .hasMore, .all, .advance]
    fun _ => show 1 ≤ Scanner.patience by decide
  obtain ⟨rfl, -⟩ := Prod.mk.inj hlist
  exact ⟨ts, ts', token, last, hts, hvalue, hvalue', hperform⟩

end TokenStream

end Lexing
