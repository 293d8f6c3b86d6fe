import Lexing.Proofs.Lexicon.Run
import Lexing.Proofs.Rule.Miss

/-!
# What a call for the next token covers

A call for the next token moves over pieces of text that are dropped and over the literal of a
token. This holds of all lexicons of built-in rules without hooks, whatever their rules do on the
way.

Where the token has the kind of the end, the text has ended, or the value of the token is the name
of this kind: a token that was given no kind has its value as kind.

## Main definitions

* `Lexicon.Gives` : lexicons of built-in rules without hooks.
* `Lexicon.Dropped`, `Lexicon.Covers` : the pieces of text that are dropped, and a text that is
  covered by them and by tokens.
* `Lexicon.Yields` : what one call for the next token does.

## Main results

* `Scanner.isEnd_of_emit` : which drafts become tokens of the kind of the end.
* `Lexicon.Gives.nextWithin_cases` : the parts of a call.
* `Lexicon.Gives.yields_next` : one call for the next token.
-/

namespace Lexing

open Scanner

/-! ### Tokens of the kind of the end -/

namespace Scanner

variable {labels : String → Prop} {s t u : Scanner} {token : Token}

theorem literal_assembled (s : Scanner) :
    s.checkValue.assembled.literal = String.ofList s.draft.literal := by
  rcases s.checkValue_eq with hs | ⟨problem, hs⟩ <;> rw [hs] <;> rfl

theorem value_assembled (s : Scanner) : s.checkValue.assembled.value = s.valueText := by
  rcases s.checkValue_eq with hs | ⟨problem, hs⟩ <;> rw [hs] <;> rfl

theorem token_of_emitDraft (h : s.emitDraft = .ok (token, t)) : token = s.checkValue.assembled := by
  rw [emitDraft_eq] at h
  cases hc : s.checkValue.countStall s.checkValue.emittedKind with
  | error fault => simp [hc, Except.map] at h
  | ok n =>
    simp only [hc, Except.map, Except.ok.injEq, Prod.mk.injEq] at h
    exact h.1.symm

/-- A token reports a failure or the end of the text, or it is the draft as it stands. -/
theorem token_of_emit (h : s.emit = .ok (token, t)) :
    (s.draft.literal = [] ∧ ∃ report, token = (s.emitFailure report).1) ∨
      (s.draft.literal = [] ∧ s.upcoming.chars = [] ∧
        token = (s.setKind Kind.endOfText).checkValue.assembled) ∨
      token = s.checkValue.assembled := by
  unfold emit at h
  split at h
  · rename_i hunread
    have hnil : s.draft.literal = [] := by simpa [Draft.isUnread_eq] using hunread
    split at h
    · exact .inl ⟨hnil, _, (Prod.mk.inj (Except.ok.inj h)).1.symm⟩
    · split at h
      · rename_i hend
        exact .inr (.inl ⟨hnil, by simpa [atEnd_eq] using hend, token_of_emitDraft h⟩)
      · exact .inr (.inr (token_of_emitDraft h))
  · exact .inr (.inr (token_of_emitDraft h))

theorem literal_of_emit (h : s.emit = .ok (token, t)) :
    token.literal = String.ofList s.draft.literal := by
  rcases token_of_emit h with ⟨hnil, report, rfl⟩ | ⟨-, -, rfl⟩ | rfl
  · rw [hnil]
    rfl
  · exact literal_assembled (s.setKind Kind.endOfText)
  · exact literal_assembled s

/-- A token takes the kind of the end from its value if the draft was not given this kind. -/
theorem value_of_isEnd (hkind : s.draft.kind ≠ Kind.endOfText)
    (hend : s.checkValue.assembled.isEnd) : s.valueText = Kind.endOfText := by
  have hends : s.checkValue.assembled.kind = Kind.endOfText := by simpa [Token.isEnd] using hend
  by_cases hnone : s.draft.kind = ""
  · rcases kind_assembled_of_kind_eq hnone with h | h
    · exact h.symm.trans hends
    · exact absurd (h.symm.trans hends) (by decide)
  · rcases kind_assembled hnone with h | h
    · exact absurd (h.symm.trans hends) hkind
    · exact absurd (h.symm.trans hends) (by decide)

/-- A draft that was not given the kind of the end becomes a token of this kind at the end of the
text, or if its value is the name of this kind. -/
theorem isEnd_of_emit (hbacked : s.IsBacked) (hkind : s.draft.kind ≠ Kind.endOfText)
    (h : s.emit = .ok (token, t)) (hend : token.isEnd) :
    s.draft.literal = [] ∧ s.upcoming.chars = [] ∨
      s.draft.literal ≠ [] ∧ token.value = Kind.endOfText := by
  rcases token_of_emit h with ⟨-, report, rfl⟩ | ⟨hnil, hup, -⟩ | rfl
  · exact absurd hend (by simp [emitFailure, Token.isEnd, Kind.error, Kind.endOfText])
  · exact .inl ⟨hnil, hup⟩
  · have hvalue := value_of_isEnd hkind hend
    refine .inr ⟨fun hnil => ?_, (value_assembled s).trans hvalue⟩
    have hempty := isEmpty_valueText.mpr (hbacked hnil)
    rw [hvalue] at hempty
    exact absurd hempty (by decide)

/-- Emitting a revised draft passes over its literal. -/
theorem Revises.passes_emit (h : s.Revises labels t) (hs : s.IsFresh)
    (he : t.emit = .ok (token, u)) : s.Passes t.draft.literal u := by
  obtain ⟨hwindow, hposition, hprevious, -, hfresh⟩ := frame_emit he
  have hup : u.upcoming = t.upcoming := congrArg Window.text hwindow
  refine ⟨?_, ?_, hprevious.trans h.previousKind, hfresh, fun hclean => (h.isClean hclean).emit he⟩
  · rw [hup, h.text, hs.1]
    rfl
  · have hplaced : t.position = t.start.advanceAll t.draft.literal := h.isPlaced hs.isPlaced
    rw [hposition, hplaced, h.start, hs.2]

/-- The draft was not given the kind of the end. -/
theorem Revises.kind_ne (h : s.Revises (· ≠ Kind.endOfText) t) (hs : s.IsFresh) :
    t.draft.kind ≠ Kind.endOfText := by
  rcases h.kind with hk | hk | hk | hk
  · rw [hk, hs.1]
    decide
  · rw [hk]
    decide
  · exact hk
  · rw [hk]
    decide

end Scanner

/-! ### Lexicons -/

namespace Lexicon

variable {x : Lexicon} {flags : Flags} {labels : String → Prop} {s t : Scanner} {token : Token}

/-- The lexicon has built-in rules, which are told to give kinds among `labels`, and no hooks. -/
structure Gives (labels : String → Prop) (x : Lexicon) : Prop where
  rules : ∀ r ∈ x.rules, r.Gives labels
  discardRule : ∀ r ∈ x.discardRule, r.Gives labels
  beforeToken : ∀ flags s, x.beforeToken flags s = .ok s
  afterToken : ∀ flags token s, x.afterToken flags token s = .ok (token, s)
  noMatch : ∀ flags s, x.noMatch flags s = .ok s.keepUnexpected

/-- The lexicon makes a token, by its rules or by the rule between tokens. -/
inductive Produces (x : Lexicon) (flags : Flags) (s : Scanner) (token : Token) (t : Scanner) : Prop
  | scanned (h : x.scanToken flags s = .ok (token, t))
  | between {rule : Rule} {u : Scanner} (hrule : x.discardRule = some rule)
      (hu : rule.eval flags s = .ok (true, u)) (h : u.emit = .ok (token, t))

/-- The pieces that the lexicon drops: discarded code points and the texts of blank tokens. -/
inductive Dropped (x : Lexicon) : List Char → List Char → Prop
  | discard {c : Char} {rest : List Char} (h : x.discards.contains c = true) : Dropped x [c] rest
  | blank {flags : Flags} {s t : Scanner} {token : Token} {w : List Char} (hs : s.IsFresh)
      (h : x.Produces flags s token t) (hblank : token.isBlank) (hw : s.Passes w t)
      (hliteral : token.literal = String.ofList w) : Dropped x w t.upcoming.chars

/-- The scanner moved from `s` to `t` over pieces that are dropped. -/
def Skips (x : Lexicon) (s t : Scanner) : Prop :=
  ∃ g, s.Passes g t ∧ Gap x.Dropped g t.upcoming.chars

theorem Skips.trans {u : Scanner} (h₁ : x.Skips s t) (h₂ : x.Skips t u) : x.Skips s u := by
  obtain ⟨g, hg, hgap⟩ := h₁
  obtain ⟨h, hh, hhap⟩ := h₂
  rw [hh.upcoming] at hgap
  exact ⟨g ++ h, hg.trans hh, hgap.append hhap⟩

theorem Skips.isFresh (h : x.Skips s t) : t.IsFresh := by
  obtain ⟨g, hg, -⟩ := h
  exact hg.isFresh

theorem skips_whileIn_discards (hs : s.IsFresh) : x.Skips s (s.whileIn x.discards .discard) := by
  refine ⟨_, passes_whileIn_discard x.discards hs, .of_forall fun c hc rest => .discard ?_⟩
  exact List.all_eq_true.mp List.all_takeWhile c hc

namespace Gives

theorem scanToken_eq (hx : x.Gives labels) {matched : Bool}
    (h : Rule.evalFirst flags x.rules s = .ok (matched, t)) :
    x.scanToken flags s = (if matched || t.atEnd then t else t.keepUnexpected).emit := by
  have hafter (o : Except Fault (Token × Scanner)) :
      (o >>= fun r => x.afterToken flags r.1 r.2) = o := by
    cases o with
    | error fault => rfl
    | ok r => exact hx.afterToken flags r.1 r.2
  rw [← hafter (Scanner.emit _)]
  simp only [scanToken, hx.beforeToken, hx.noMatch, bind, Except.bind, h]
  split <;> rfl

/-- A token is made by revising a draft and emitting it. -/
theorem exists_revises (hx : x.Gives labels) (h : x.Produces flags s token t) :
    ∃ u, s.Revises labels u ∧ u.emit = .ok (token, t) := by
  rcases h with h | ⟨hrule, hu, h⟩
  · rcases hrules : Rule.evalFirst flags x.rules s with fault | ⟨matched, u⟩
    · simp [scanToken, hx.beforeToken, hrules, bind, Except.bind] at h
    · have hu := (Rule.Gives.group hx.rules).revises_eval flags s matched u hrules
      rw [hx.scanToken_eq hrules] at h
      refine ⟨_, ?_, h⟩
      split
      · exact hu
      · exact (hu.reject _).trans (revises_keep _)
  · exact ⟨_, (hx.discardRule _ hrule).revises_eval flags s _ _ hu, h⟩

/-- The text of a blank token is dropped. -/
theorem skips_of_isBlank (hx : x.Gives labels) (hs : s.IsFresh) (h : x.Produces flags s token t)
    (hblank : token.isBlank) : x.Skips s t := by
  obtain ⟨u, hu, hemit⟩ := hx.exists_revises h
  have hpass := hu.passes_emit hs hemit
  exact ⟨_, hpass, .single (.blank hs h hblank hpass (literal_of_emit hemit))⟩

/-- Discarding moves over dropped pieces, after which the rule between tokens may make a token. -/
theorem skipDiscardsWithin_cases (hx : x.Gives labels) {bound : Nat} {result : Option Token}
    (hs : s.IsFresh) (h : x.skipDiscardsWithin flags bound s = .ok (result, t)) :
    result = none ∧ x.Skips s t ∨
      ∃ token u, result = some token ∧ x.Skips s u ∧ x.Produces flags u token t := by
  induction bound generalizing s with
  | zero => exact absurd h (by simp [skipDiscardsWithin])
  | succ bound ih =>
    have hskip : x.Skips s (s.whileIn x.discards .discard) := skips_whileIn_discards hs
    rw [skipDiscardsWithin] at h
    generalize s.whileIn x.discards .discard = u at hskip h
    split at h
    · obtain ⟨rfl, rfl⟩ := Prod.mk.inj (Except.ok.inj h)
      exact .inl ⟨rfl, hskip⟩
    · rename_i rule hrule
      obtain ⟨⟨matched, v⟩, hv, h⟩ := exists_of_bind_eq_ok h
      cases matched with
      | false =>
        obtain ⟨rfl, rfl⟩ := Prod.mk.inj (Except.ok.inj h)
        have hmiss := (hx.discardRule rule hrule).restores_of_miss_of_isFresh hskip.isFresh hv
        exact .inl ⟨rfl, hskip.trans ⟨[], hmiss.passes hskip.isFresh, .nil⟩⟩
      | true =>
        obtain ⟨⟨token, t'⟩, hemit, h⟩ := exists_of_bind_eq_ok h
        have hmade : x.Produces flags u token t' := .between hrule hv hemit
        dsimp only at h
        split at h
        · obtain ⟨rfl, rfl⟩ := Prod.mk.inj (Except.ok.inj h)
          exact .inr ⟨token, u, rfl, hskip, hmade⟩
        · rename_i hdropped
          split at h
          · obtain ⟨_, hfault, -⟩ := exists_of_bind_eq_ok h
            exact absurd hfault (by simp [throw, throwThe, MonadExceptOf.throw])
          · have hdrop := hskip.trans
              (hx.skips_of_isBlank hskip.isFresh hmade (by simpa using hdropped))
            rcases ih hdrop.isFresh h with ⟨hnone, hrest⟩ | ⟨token', v', hsome, hrest, hprod⟩
            · exact .inl ⟨hnone, hdrop.trans hrest⟩
            · exact .inr ⟨token', v', hsome, hdrop.trans hrest, hprod⟩

/-- A call for the next token moves over dropped pieces. Then it makes a token, or it emits an empty
draft at the end of the text. -/
theorem nextWithin_cases (hx : x.Gives labels) {bound : Nat} (hs : s.IsFresh)
    (h : x.nextWithin flags bound s = .ok (token, t)) :
    ∃ u, x.Skips s u ∧ (u.emit = .ok (token, t) ∨
      ∃ v, x.Produces flags u token v ∧ t = (accept token v).2) := by
  induction bound generalizing s with
  | zero => exact absurd h (by simp [nextWithin])
  | succ bound ih =>
    rw [nextWithin] at h
    obtain ⟨⟨result, u⟩, hskip, h⟩ := exists_of_bind_eq_ok h
    rcases hx.skipDiscardsWithin_cases hs hskip with ⟨rfl, hu⟩ | ⟨token', v, rfl, hv, hmade⟩
    · dsimp only at h
      split at h
      · exact ⟨u, hu, .inl h⟩
      · obtain ⟨⟨token', v⟩, hscan, h⟩ := exists_of_bind_eq_ok h
        have hmade : x.Produces flags u token' v := .scanned hscan
        dsimp only at h
        split at h
        · obtain ⟨rfl, rfl⟩ := Prod.mk.inj (Except.ok.inj h)
          exact ⟨u, hu, .inr ⟨v, hmade, rfl⟩⟩
        · rename_i hdropped
          split at h
          · obtain ⟨_, hfault, -⟩ := exists_of_bind_eq_ok h
            exact absurd hfault (by simp [throw, throwThe, MonadExceptOf.throw])
          · have hdrop := hu.trans (hx.skips_of_isBlank hu.isFresh hmade (by simpa using hdropped))
            obtain ⟨v', hv', hend⟩ := ih hdrop.isFresh h
            exact ⟨v', hdrop.trans hv', hend⟩
    · obtain ⟨rfl, rfl⟩ := Prod.mk.inj (Except.ok.inj h)
      exact ⟨v, hv, .inr ⟨u, hmade, rfl⟩⟩

end Gives

/-! ### The next token -/

/-- What one call for the next token does, by which the upcoming text becomes `rest`. It passes over
a gap and the literal of a token; or it finds the end after a gap; or the token is taken for the end
because of its value. -/
inductive Yields (x : Lexicon) (text : List Char) (token : Token) (rest : List Char) : Prop
  | token {g w : List Char} (hmore : token.isEnd = false) (htext : text = g ++ (w ++ rest))
      (hgap : Gap x.Dropped g (w ++ rest)) (hliteral : token.literal = String.ofList w)
  | ended (hend : token.isEnd = true) (hgap : Gap x.Dropped text []) (hrest : rest = [])
      (hliteral : token.literal = "")
  | forged (hend : token.isEnd = true) (hvalue : token.value = Kind.endOfText)
      (hliteral : token.literal ≠ "")

/-- After a gap, a draft that was not given the kind of the end is emitted. -/
theorem Skips.yields {u v : Scanner} (h : x.Skips s u) (hv : u.Revises (· ≠ Kind.endOfText) v)
    (he : v.emit = .ok (token, t)) : x.Yields s.upcoming.chars token t.upcoming.chars := by
  have hfresh := h.isFresh
  obtain ⟨g, hg, hgap⟩ := h
  have hpass := hv.passes_emit hfresh he
  have hliteral := literal_of_emit he
  rw [hpass.upcoming] at hgap
  by_cases hend : token.isEnd = true
  · have hbacked := hv.isBacked (isBacked_of_draft_eq hfresh.1)
    rcases isEnd_of_emit hbacked (hv.kind_ne hfresh) he hend with ⟨hnil, hup⟩ | ⟨hne, hvalue⟩
    · have hrest : t.upcoming.chars = [] :=
        (congrArg (·.text.chars) (frame_emit he).1).trans hup
      rw [hnil, hrest] at hgap
      have htext : s.upcoming.chars = g := by
        rw [hg.upcoming, hpass.upcoming, hnil, hrest]
        simp
      exact .ended hend (htext ▸ hgap) hrest (hliteral.trans (congrArg String.ofList hnil))
    · refine .forged hend hvalue fun hempty => hne ?_
      exact String.ofList_eq_empty_iff.mp (hliteral.symm.trans hempty)
  · refine .token (Bool.eq_false_iff.mpr hend) ?_ hgap hliteral
    rw [hg.upcoming, hpass.upcoming]

/-- A call for the next token passes over a gap and a token, or it finds the end, real or not. -/
theorem Gives.yields_next (hx : x.Gives (· ≠ Kind.endOfText)) (hs : s.IsFresh)
    (h : x.next flags s = .ok (token, t)) :
    x.Yields s.upcoming.chars token t.upcoming.chars ∧ t.IsFresh := by
  obtain ⟨u, hu, hemit | ⟨v, hmade, rfl⟩⟩ := hx.nextWithin_cases hs h
  · exact ⟨hu.yields (.refl u) hemit, (frame_emit hemit).2.2.2.2⟩
  · obtain ⟨w, hw, hemit⟩ := hx.exists_revises hmade
    have hyields := hu.yields hw hemit
    have hfresh := (frame_emit hemit).2.2.2.2
    rw [accept_eq]
    exact ⟨hyields, hfresh⟩

/-- The text begins with the literals of the tokens, with gaps before them, and goes on with `rest`.
-/
inductive Covers (x : Lexicon) (text : List Char) : List Token → List Char → Prop
  | nil : Covers x text [] text
  | snoc {tokens : List Token} {token : Token} {g w rest : List Char}
      (h : Covers x text tokens (g ++ (w ++ rest))) (hgap : Gap x.Dropped g (w ++ rest))
      (hliteral : token.literal = String.ofList w) : Covers x text (tokens ++ [token]) rest

end Lexicon

end Lexing
