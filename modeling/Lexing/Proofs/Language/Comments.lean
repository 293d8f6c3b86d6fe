import Lexing.Proofs.Language.Semicolon
import Lexing.Proofs.Lexicon.Keeping
import Lexing.Proofs.Lexicon.Schedule
import Mathlib.Data.List.Forall2

/-!
# Keeping the comments of Go

The flag that keeps comments may be set anew before every token. The scan under any schedule of
flags is followed beside a scan in which comments are always kept. Both come to the same scanners. A
call that keeps comments gives a comment, after which the other scan is still to make its call, or
both calls give tokens that differ at most in the text of a comment that is not closed.

## Main definitions

* `Language.Go.keeping` : the flags that keep comments.

## Main results

* `Language.Go.retains_of_read` : the texts that are read for a token.
* `Language.Go.next_under` : one call for the next token.
* `Language.Go.forall₂_of_runUnder` : all calls.
* `Language.Go.comments_kept_aside` : the tokens of two streams without the comments.
-/

namespace Lexing.Language.Go

open Scanner

variable {flags : Flags} {schedule : Schedule} {s t u : Scanner} {tokens tokens' : List Token}

/-- The flags that keep comments. -/
def keeping : Flags :=
  Flags.off.set keepComments true

/-! ### One token -/

theorem attempt_congr {r : CommentRule} {flags' : Flags}
    (h : r.keepFlag.any flags = r.keepFlag.any flags') (s : Scanner) :
    r.attempt flags s = r.attempt flags' s := by
  rw [CommentRule.attempt, CommentRule.attempt, h]

/-- The outcomes are equal, or both are matches and a comment was kept in the first only. -/
def Parallel (o o' : Outcome) : Prop :=
  o = o' ∨ ∃ t u, o = .ok (true, t) ∧ o' = .ok (true, u) ∧ t.Retains Kind.comment u

/-- A comment is the first match under all flags or under none. -/
theorem parallel_evalFirst {r : CommentRule} (hr : r = blockComment ∨ r = lineComment)
    {rs : List Rule} (hs : s.IsFresh)
    (h : Parallel (Rule.evalFirst keeping rs s) (Rule.evalFirst flags rs s)) :
    Parallel (Rule.evalFirst keeping (.comment r :: rs) s)
      (Rule.evalFirst flags (.comment r :: rs) s) := by
  have hflag (flags : Flags) : r.keepFlag.any flags = flags keepComments := by
    rcases hr with rfl | rfl <;> rfl
  have hlabels : r.opening.skipped = true ∧ r.opening.kind = none ∧ r.kind = Kind.comment := by
    rcases hr with rfl | rfl <;> exact ⟨rfl, rfl, rfl⟩
  rw [Rule.evalFirst_cons, Rule.evalFirst_cons, Rule.eval_comment, Rule.eval_comment]
  cases hkept : flags keepComments with
  | true =>
    have hsame : r.keepFlag.any flags = r.keepFlag.any keeping := by
      rw [hflag, hflag, hkept]
      rfl
    rw [attempt_congr hsame]
    cases r.attempt keeping s with
    | none => exact h
    | some t => exact .inl rfl
  | false =>
    cases hattempt : r.attempt keeping s with
    | none =>
      have hnone : r.attempt flags s = none :=
        Option.map_eq_none_iff.mpr (Option.map_eq_none_iff.mp hattempt)
      rw [hnone]
      exact h
    | some t =>
      obtain ⟨u, hu, hretains⟩ := CommentRule.attempt_of_kept hlabels.1 hlabels.2.1
        (hlabels.2.2 ▸ by decide) hs (hflag keeping) ((hflag flags).trans hkept) hattempt
      rw [hu]
      exact .inr ⟨t, u, rfl, rfl, hlabels.2.2 ▸ hretains⟩

/-- Under all flags the same text is read for a token. -/
theorem retains_of_read (hs : s.IsFresh) (h : lexicon.read keeping s = .ok t)
    (h' : lexicon.read flags s = .ok u) : t = u ∨ t.Retains Kind.comment u := by
  -- All rules but those for comments do the same under all flags.
  have hothers : Parallel (Rule.evalFirst keeping (rules.drop 2) s)
      (Rule.evalFirst flags (rules.drop 2) s) := .inl rfl
  have hfirst : Parallel (Rule.evalFirst keeping lexicon.rules s)
      (Rule.evalFirst flags lexicon.rules s) :=
    parallel_evalFirst (.inl rfl) hs (parallel_evalFirst (.inr rfl) hs hothers)
  rw [Lexicon.read] at h h'
  rcases hfirst with heq | ⟨v, v', hv, hv', hretains⟩
  · rw [heq] at h
    exact .inl (Except.ok.inj (h.symm.trans h'))
  · rw [hv] at h
    rw [hv'] at h'
    obtain rfl : v = t := Except.ok.inj h
    obtain rfl : v' = u := Except.ok.inj h'
    exact .inr hretains

/-- A call gives the token that is read first, unless the hook drops it. -/
theorem next_of_read (hs : s.IsFresh) (hend : (s.whileIn lexicon.discards .discard).atEnd = false)
    (hread : lexicon.read flags (s.whileIn lexicon.discards .discard) = .ok t) :
    lexicon.next flags s =
      if (insertSemicolon s.previousKind t.checkValue.assembled).isBlank then
        Lexicon.ifMoved (s.whileIn lexicon.discards .discard) t.renew (lexicon.next flags t.renew)
      else .ok (Lexicon.accept (insertSemicolon s.previousKind t.checkValue.assembled) t.renew) :=
  fits_lexicon.next_of_read rfl hs hend hread

/-- A call gives the token that is read first, if that has a kind and is no newline. -/
theorem next_of_kind_eq {kind : String} (hs : s.IsFresh)
    (hend : (s.whileIn lexicon.discards .discard).atEnd = false)
    (hread : lexicon.read flags (s.whileIn lexicon.discards .discard) = .ok t)
    (hkind : t.checkValue.assembled.kind = kind) (hnewline : kind ≠ "\n") (hempty : kind ≠ "") :
    lexicon.next flags s = .ok (Lexicon.accept t.checkValue.assembled t.renew) := by
  have hblank : t.checkValue.assembled.isBlank ≠ true := fun h =>
    hempty (hkind.symm.trans (Token.kind_of_isBlank h))
  rw [next_of_read hs hend hread, insertSemicolon_of_ne (hkind ▸ hnewline), if_neg hblank]

/-- One call. If it gives a comment where comments are kept, the same call under other flags is
still to be made from where it ends. Otherwise both calls end in the same way, and the tokens differ
at most in the text of a comment that is not closed. -/
theorem next_under (flags : Flags) (hs : s.IsFresh) :
    ∃ token t, lexicon.next keeping s = .ok (token, t) ∧
      ((token.kind = Kind.comment ∧
          ∀ out, lexicon.next flags s = .ok out → lexicon.next flags t = .ok out) ∨
        ∃ token', lexicon.next flags s = .ok (token', t) ∧ token.Concurs token') := by
  have hfits (flags : Flags) : lexicon.Fits flags (profile flags) := fits_lexicon
  generalize hn : s.upcoming.chars.length = n
  induction n using Nat.strongRecOn generalizing s with
  | ind n ih =>
    have hgap := passes_whileIn_discard lexicon.discards hs
    obtain ⟨token, t, hgives, -⟩ := (hfits keeping).exists_next hs (dropsVisibly (.inl rfl))
    by_cases hend : (s.whileIn lexicon.discards .discard).atEnd = true
    · refine ⟨token, t, hgives, .inr ⟨token, ?_, .refl token⟩⟩
      rw [← hgives, Lexicon.next_of_atEnd rfl hend, Lexicon.next_of_atEnd rfl hend]
    · rw [Bool.not_eq_true] at hend
      obtain ⟨w, v, hread, hw, hconsumes, -⟩ := (hfits keeping).exists_read hgap.isFresh hend
      obtain ⟨-, u, hread', -⟩ := (hfits flags).exists_read hgap.isFresh hend
      have hnext := next_of_read hs hend hread
      have hnext' := next_of_read hs hend hread'
      rcases retains_of_read hgap.isFresh hread hread' with rfl | ⟨hrenew, hretains⟩
      · -- Both calls read the same token, and either both give it or both go on.
        by_cases hblank : (insertSemicolon s.previousKind v.checkValue.assembled).isBlank = true
        · have hpass := (hconsumes.passes_renew hgap.isFresh hw).2
          rw [if_pos hblank] at hnext hnext'
          have hmoved := (Lexicon.ifMoved_eq_ok.mp (hnext.symm.trans hgives)).1
          rw [hnext, hnext', Lexicon.ifMoved_of_ne hmoved, Lexicon.ifMoved_of_ne hmoved]
          exact ih _ (hn ▸ hgap.length_lt hpass hw) hpass.isFresh rfl
        · rw [if_neg hblank] at hnext hnext'
          exact ⟨_, _, hnext, .inr ⟨_, hnext', .refl _⟩⟩
      · rcases hretains with ⟨hkind, hblank⟩ | ⟨hkind, hconcurs⟩
        · have hnext := next_of_kind_eq hs hend hread hkind (by decide) (by decide)
          rw [Lexicon.accept, if_pos hkind] at hnext
          rw [insertSemicolon_of_isBlank hblank, if_pos hblank, ← hrenew] at hnext'
          refine ⟨_, _, hnext, .inl ⟨hkind, fun out hout => ?_⟩⟩
          exact (Lexicon.ifMoved_eq_ok.mp (hnext'.symm.trans hout)).2
        · have hkind' := hconcurs.kind.symm.trans hkind
          have hnext := next_of_kind_eq hs hend hread hkind (by decide) (by decide)
          have hnext' := next_of_kind_eq hs hend hread' hkind' (by decide) (by decide)
          rw [Lexicon.accept, hkind] at hnext
          rw [Lexicon.accept, hkind', ← hrenew] at hnext'
          exact ⟨_, _, hnext, .inr ⟨_, hnext', hconcurs⟩⟩

/-! ### All tokens -/

/-- All calls: under every schedule the tokens that are no comments are those of a run that keeps
all comments. -/
theorem forall₂_of_runUnder (hs : s.IsFresh) (h : lexicon.Run keeping s tokens)
    (h' : lexicon.RunUnder schedule s tokens') :
    List.Forall₂ Token.Concurs (tokens.filter (·.kind ≠ Kind.comment))
      (tokens'.filter (·.kind ≠ Kind.comment)) := by
  induction h generalizing schedule tokens' with
  | @ended s t token hnext hend =>
    obtain ⟨_, _, hnext', hcases⟩ := next_under (schedule 0) hs
    obtain ⟨rfl, rfl⟩ := Prod.mk.inj (Except.ok.inj (hnext.symm.trans hnext'))
    rcases hcases with ⟨hkind, -⟩ | ⟨token', hother, hconcurs⟩
    · rw [Token.isEnd, hkind] at hend
      exact absurd hend (by decide)
    · rw [Token.isEnd, hconcurs.kind] at hend
      rw [h'.of_isEnd hother hend]
      exact .nil
  | @token s t token tokens hnext hmore _ ih =>
    obtain ⟨_, _, hnext', hcases⟩ := next_under (schedule 0) hs
    obtain ⟨rfl, rfl⟩ := Prod.mk.inj (Except.ok.inj (hnext.symm.trans hnext'))
    have hfresh := (fits_lexicon.step_of_next hs hnext).effort_lt hmore |>.1
    rcases hcases with ⟨hkind, hother⟩ | ⟨token', hother, hconcurs⟩
    · rw [List.filter_cons_of_neg (by simp [hkind])]
      exact ih hfresh (h'.congr hother)
    · rw [Token.isEnd, hconcurs.kind] at hmore
      obtain ⟨rest, rfl, hrest⟩ := h'.of_next hother hmore
      by_cases hkind : token.kind = Kind.comment
      · rw [List.filter_cons_of_neg (by simp [hkind]),
          List.filter_cons_of_neg (by simp [← hconcurs.kind, hkind])]
        exact ih hfresh hrest
      · rw [List.filter_cons_of_pos (by simpa using hkind),
          List.filter_cons_of_pos (by simpa [← hconcurs.kind] using hkind)]
        exact .cons hconcurs (ih hfresh hrest)

/-- Lists with which a third one agrees agree with each other. -/
theorem forall₂_concurs {all : List Token} (h : List.Forall₂ Token.Concurs all tokens)
    (h' : List.Forall₂ Token.Concurs all tokens') : List.Forall₂ Token.Concurs tokens tokens' := by
  induction h generalizing tokens' with
  | nil =>
    cases h'
    exact .nil
  | cons hconcurs _ ih =>
    cases h' with
    | cons hconcurs' hrest => exact .cons (hconcurs.symm.trans hconcurs') (ih hrest)

/-- Keeping comments does not change the other tokens. Without the comments, the tokens that streams
of the same input hand out under two schedules of flags agree one by one in kind, literal, position
and diagnostics, and in their values as well, unless a comment that is not closed is reported. A
stream hands out its tokens under every schedule that keeps comments always, and under every
schedule at all, if no comment is so long that it may bring the position round. -/
theorem comments_kept_aside (name : String) (input : CharStream) (schedule schedule' : Schedule) :
    ((∀ i, schedule i keepComments = true) ∨ HasShortComments input.drain.1 →
      ∃ tokens, lexicon.Hands schedule (ofStream name input) tokens) ∧
    ∀ tokens tokens', lexicon.Hands schedule (ofStream name input) tokens →
      lexicon.Hands schedule' (ofStream name input) tokens' →
      List.Forall₂ Token.Concurs (tokens.filter (·.kind ≠ Kind.comment))
        (tokens'.filter (·.kind ≠ Kind.comment)) := by
  have hs := isFresh_ofStream name input
  have hfits (flags : Flags) : lexicon.Fits flags (profile flags) := fits_lexicon
  refine ⟨fun hshort => ?_, fun tokens tokens' h h' => ?_⟩
  · rw [← upcoming_ofStream name input] at hshort
    obtain ⟨tokens, hrun⟩ := Lexicon.exists_runUnder hfits schedule.ahead hs
      fun i => dropsVisibly (hshort.imp_left fun hkept => hkept _)
    exact ⟨tokens, hrun.hands⟩
  · obtain ⟨all, hall⟩ := (hfits keeping).exists_run hs (dropsVisibly (.inl rfl))
    exact forall₂_concurs (forall₂_of_runUnder hs hall h.runUnder)
      (forall₂_of_runUnder hs hall h'.runUnder)

/-- The text `/*x*/a/*y`. -/
def commentSample : ByteSource :=
  { reads := [.bytes [0x2F, 0x2A, 0x78, 0x2A, 0x2F, 0x61, 0x2F, 0x2A, 0x79]] }

/-- Comments are kept until one token was handed out. -/
def keptAtFirst : Schedule :=
  fun i => Flags.off.set keepComments (i < 2)

/-- The first comment is kept or not. The second is not closed, and its text is the value of an
illegal token if it is kept. -/
theorem comments_kept_aside_commentSample :
    ∃ tokens tokens',
      lexicon.Hands keptAtFirst (ofStream "f" (.ofSource commentSample)) tokens ∧
      lexicon.Hands (fun _ => .off) (ofStream "f" (.ofSource commentSample)) tokens' ∧
      tokens.map (·.value) = ["x", "a", "y"] ∧ tokens'.map (·.value) = ["a", ""] ∧
      List.Forall₂ Token.Concurs (tokens.filter (·.kind ≠ Kind.comment))
        (tokens'.filter (·.kind ≠ Kind.comment)) := by
  obtain ⟨tokens, hkept, hvalues⟩ : ∃ tokens,
      lexicon.Hands keptAtFirst (ofStream "f" (.ofSource commentSample)) tokens ∧
      tokens.map (·.value) = ["x", "a", "y"] :=
    ⟨_, ⟨_, rfl, .token rfl rfl (.token rfl rfl (.token rfl rfl (.ended rfl)))⟩, rfl⟩
  obtain ⟨tokens', hdropped, hvalues'⟩ : ∃ tokens',
      lexicon.Hands (fun _ => .off) (ofStream "f" (.ofSource commentSample)) tokens' ∧
      tokens'.map (·.value) = ["a", ""] :=
    ⟨_, ⟨_, rfl, .token rfl rfl (.token rfl rfl (.ended rfl))⟩, rfl⟩
  exact ⟨tokens, tokens', hkept, hdropped, hvalues, hvalues',
    (comments_kept_aside "f" _ keptAtFirst _).2 tokens tokens' hkept hdropped⟩

end Lexing.Language.Go
