import Lexing.Language.Go
import Lexing.Proofs.Lexicon.Kinds

/-!
# The tokens and gaps of Go

Every token of Go has one of a list of kinds, with one exception: a comment that is not kept is
blank. A token of the kind of newlines is a newline, and the hook drops it or turns it into a
semicolon.

## Main definitions

* `Language.Go.kinds` : the kinds of tokens other than operators.
* `Language.Go.IsComment`, `Language.Go.Dropped` : what may stand between tokens.
* `Language.Go.HasShortComments` : no comment is too long to be dropped.

## Main results

* `Language.Go.isComment_of_attempt` : what a dropped comment is.
* `Language.Go.fits_lexicon` : the tokens before the hook.
* `Language.Go.dropped_of_drops` : gaps are made of blanks, newlines and comments.
-/

namespace Lexing.Language.Go

open Scanner

/-! ### Comments -/

/-- A whole comment before the text `rest`. A block comment ends with the first closing mark, and a
line comment goes on to the end of its line. -/
inductive IsComment : List Char → List Char → Prop
  | block {v rest : List Char} (h : ¬['*', '/'] <:+: v ++ ['*']) :
      IsComment (['/', '*'] ++ v ++ ['*', '/']) rest
  | line {v rest : List Char} (h : '\n' ∉ v) (hrest : rest = [] ∨ rest.head? = some '\n') :
      IsComment (['/', '/'] ++ v) rest

/-- The text of a block comment has no closing mark before its end. -/
theorem not_infix_of_lacks {v rest : List Char}
    (h : CommentRule.Lacks (.ofWords ["*/"]) v (['*', '/'] ++ rest)) :
    ¬['*', '/'] <:+: v ++ ['*'] := by
  rintro ⟨a, b, hab⟩
  have hlength := congrArg List.length hab
  simp only [List.length_append, List.length_cons, List.length_nil] at hlength
  refine WordTree.longest_ne_zero "*/" (by decide) ?_ (h a.length (by omega))
  have htext : v ++ (['*', '/'] ++ rest) = a ++ (['*', '/'] ++ (b ++ ['/'] ++ rest)) := by
    calc v ++ (['*', '/'] ++ rest) = v ++ ['*'] ++ ['/'] ++ rest := by simp
      _ = a ++ ['*', '/'] ++ b ++ ['/'] ++ rest := by rw [hab]
      _ = a ++ (['*', '/'] ++ (b ++ ['/'] ++ rest)) := by simp
  rw [htext, List.drop_left]
  exact List.prefix_append ..

/-- The text of a line comment has no newline. -/
theorem newline_not_mem_of_lacks {v rest : List Char}
    (h : CommentRule.Lacks (.ofWords ["\n"]) v rest) : '\n' ∉ v := by
  intro hmem
  obtain ⟨a, b, rfl⟩ := List.append_of_mem hmem
  refine WordTree.longest_ne_zero "\n" (by decide) ?_ (h a.length (by simp))
  rw [List.append_assoc, List.drop_left]
  exact List.prefix_append ['\n'] _

variable {flags : Flags} {s t : Scanner} {w : List Char}

/-- A comment that is not kept leaves the draft without value and kind, unless it is not closed. -/
theorem attempt_of_not_kept {r : CommentRule} (hr : r = blockComment ∨ r = lineComment)
    (hflag : flags keepComments = false) (hs : s.IsFresh) (hw : s.Consumes w t)
    (h : r.attempt flags s = some t) :
    t.draft.kind = Kind.illegal ∨
      t.draft.value = [] ∧ t.draft.kind = "" ∧ IsComment w t.upcoming.chars := by
  rcases hr with rfl | rfl
  · refine (CommentRule.attempt_of_not_kept (r := blockComment) hflag rfl rfl hs hw h).imp_right ?_
    rintro ⟨hvalue, hkind, b, v, e, rfl, hb, hlacks, hcloses⟩
    obtain rfl := WordTree.eq_of_contains_ofWords hb
    rcases hcloses with ⟨-, he⟩ | ⟨hinclusive, -, -⟩
    · obtain rfl := WordTree.eq_of_contains_ofWords he
      exact ⟨hvalue, hkind, .block (not_infix_of_lacks hlacks)⟩
    · cases hinclusive
  · refine (CommentRule.attempt_of_not_kept (r := lineComment) hflag rfl rfl hs hw h).imp_right ?_
    rintro ⟨hvalue, hkind, b, v, e, rfl, hb, hlacks, hcloses⟩
    obtain rfl := WordTree.eq_of_contains_ofWords hb
    rcases hcloses with ⟨hinclusive, -⟩ | ⟨-, rfl, hrest⟩
    · cases hinclusive
    · rw [List.append_nil]
      refine ⟨hvalue, hkind, .line (newline_not_mem_of_lacks hlacks) (hrest.imp_right ?_)⟩
      intro hfound
      obtain ⟨more, hmore⟩ := WordTree.begins_of_longest_ne_zero hfound
      rw [← hmore]
      rfl

/-! ### Tokens -/

/-- The kinds that rules may give and the keywords. Numbers without fractions could be given the
kind of reals, though they never are. -/
def kinds : List String :=
  [Kind.illegal, Kind.comment, Kind.identifier, Kind.integer, Kind.real, floatKind, imaginaryKind,
    runeKind, stringKind] ++ keywords

theorem isKinds_kinds : IsKinds kinds :=
  ⟨by decide, by decide⟩

/-- The profile of Go. A token has one of the kinds, or it is an operator or a newline and a kind of
its own, or it is a comment that is not kept. -/
def profile (flags : Flags) : Profile where
  scanned := fun token w rest =>
    token.kind ∈ kinds ∨ (String.ofList w ∈ operators ∧ token.kind = String.ofList w) ∨
      (token.isBlank ∧ flags keepComments = false ∧ IsComment w rest)
  between := fun _ _ _ => False
  finish := insertSemicolon

theorem isSound_comment {r : CommentRule} (hr : r = blockComment ∨ r = lineComment) :
    (Rule.comment r).IsSound flags (Emits (profile flags).scanned) := by
  refine Rule.isSound_comment fun s w t hs hw h => ?_
  have hflag : r.keepFlag.any flags = flags keepComments := by rcases hr with rfl | rfl <;> rfl
  have hlabel : r.opening.kind = none ∧ r.kind = Kind.comment := by
    rcases hr with rfl | rfl <;> exact ⟨rfl, rfl⟩
  by_cases hkept : flags keepComments = true
  · have hne := CommentRule.kind_attempt_of_kept (hflag.trans hkept) (by rw [hlabel.2]; decide) h
    obtain ⟨_, -, hsteps⟩ := CommentRule.assembles_attempt h
    have hkind := hsteps.kind_eq
    rw [hs.1, hlabel.1, hlabel.2] at hkind
    refine .inl (isKinds_kinds.hasKindIn ?_)
    rcases hkind with hkind | (hkind | hkind) | hkind
    · exact absurd hkind hne
    · cases hkind
    · exact .inl (hkind ▸ by decide)
    · exact .inr hkind
  · have hoff : flags keepComments = false := Bool.eq_false_iff.mpr hkept
    rcases attempt_of_not_kept hr hoff hs hw h with hkind | ⟨hvalue, hkind, hcomment⟩
    · exact .inl (isKinds_kinds.hasKindIn (.inr hkind))
    · exact .inr (.inr ⟨isBlank_assembled.mpr ⟨hvalue, hkind⟩, hoff, hcomment⟩)

theorem isSteady_imaginarySuffix :
    ∀ r ∈ [imaginarySuffix], r.IsSteady flags (· ∈ kinds) := by
  simp only [List.forall_mem_cons]
  refine ⟨Rule.isSteady_literal fun kind hkind => ?_, by simp⟩
  obtain rfl : imaginaryKind = kind := Option.some.inj hkind
  decide

theorem isEscape_escapes (asByte : Bool) : ∀ r ∈ escapes asByte, r.IsEscape := by
  simp [escapes, Rule.IsEscape]

theorem isSound_afterLead {f : Numeral} (hf : f.Labels (· ∈ kinds)) (leads : List String) :
    (afterLead f leads).IsSound flags fun _ t => t.HasKindIn kinds := by
  refine Rule.isSound_number_kind isKinds_kinds hf (fun r hr => ?_) isSteady_imaginarySuffix
  obtain rfl := Option.some.inj hr
  exact Rule.isSteady_literal fun _ h => nomatch h

/-- The hook keeps a token that is no newline, turns a newline into a semicolon after a token that
ends a statement, and drops it otherwise. -/
theorem insertSemicolon_cases (previous : String) (token : Token) :
    (token.kind ≠ "\n" ∧ insertSemicolon previous token = token) ∨
      (token.kind = "\n" ∧ previous ∈ statementEnds ∧
        insertSemicolon previous token = { token with kind := ";", value := ";" }) ∨
      (token.kind = "\n" ∧ previous ∉ statementEnds ∧ insertSemicolon previous token = {}) := by
  by_cases hkind : token.kind = "\n" <;> by_cases hprevious : previous ∈ statementEnds <;>
    simp [insertSemicolon, hkind, hprevious]

theorem insertSemicolon_of_ne {previous : String} {token : Token} (h : token.kind ≠ "\n") :
    insertSemicolon previous token = token :=
  if_pos h

theorem insertSemicolon_of_isBlank {previous : String} {token : Token} (h : token.isBlank = true) :
    insertSemicolon previous token = token :=
  insertSemicolon_of_ne (Token.kind_of_isBlank h ▸ by decide)

/-- Every token of Go is as the profile says before the hook. -/
theorem fits_lexicon : lexicon.Fits flags (profile flags) where
  rules := by
    have hkind {r : Rule} (h : r.IsSound flags fun _ t => t.HasKindIn kinds) :
        r.IsSound flags (Emits (profile flags).scanned) := h.mono fun _ _ => .inl
    have hlabels (f : Numeral) (hi : f.integerKind ∈ kinds := by decide)
        (hr : f.realKind ∈ kinds := by decide) (hk : f.kind = none := by rfl) :
        f.Labels (· ∈ kinds) := ⟨hi, hr, by simp [hk]⟩
    change ∀ r ∈ rules, _
    simp only [rules, List.forall_mem_cons]
    exact ⟨isSound_comment (.inl rfl), isSound_comment (.inr rfl),
      hkind (Rule.isSound_quotation_kind isKinds_kinds (by decide) (isEscape_escapes false)),
      hkind (isSound_afterLead (hlabels hexadecimal) _),
      hkind (isSound_afterLead (hlabels octal) _), hkind (isSound_afterLead (hlabels binary) _),
      hkind (Rule.isSound_number_kind isKinds_kinds (hlabels decimal) (by simp)
        isSteady_imaginarySuffix),
      hkind (Rule.isSound_quotation_kind isKinds_kinds (by decide) (isEscape_escapes true)),
      hkind (Rule.isSound_quotation_kind isKinds_kinds (by decide) (by simp)),
      hkind (Rule.isSound_name_kind isKinds_kinds (by decide) fun _ => List.mem_append_right _),
      (Rule.isSound_word operators).mono fun _ _ h => .inr (.inl h), by simp⟩
  discardRule _ hr := by simp [lexicon] at hr
  unexpected s _ _ _ := .inl (isKinds_kinds.hasKindIn (.inr s.kind_keepUnexpected))
  beforeToken _ := rfl
  afterToken _ _ := rfl
  noMatch _ := rfl
  finish previous token h := by
    change (insertSemicolon previous token).isBlank = false at h
    change (insertSemicolon previous token).literal = _ ∧
      (insertSemicolon previous token).position = _
    rcases insertSemicolon_cases previous token with ⟨-, heq⟩ | ⟨-, -, heq⟩ | ⟨-, -, heq⟩
    · rw [heq]
      exact ⟨rfl, rfl⟩
    · rw [heq]
      exact ⟨rfl, rfl⟩
    · simp [heq, Token.isBlank] at h

/-- A token of the kind of newlines is a newline. -/
theorem eq_newline_of_scanned {token : Token} {rest : List Char}
    (h : (profile flags).scanned token w rest) (hkind : token.kind = "\n") : w = ['\n'] := by
  rcases h with h | ⟨-, h⟩ | ⟨h, -⟩
  · exact absurd (hkind ▸ h) (by decide)
  · exact String.ofList_injective (h.symm.trans hkind)
  · exact absurd ((Token.kind_of_isBlank h).symm.trans hkind) (by decide)

/-! ### After the hook -/

/-- What may stand between tokens after a token of the kind `previous`. -/
inductive Dropped (flags : Flags) (previous : String) : List Char → List Char → Prop
  | blank {c : Char} {rest : List Char} (h : c ∈ [' ', '\t', '\r']) :
      Dropped flags previous [c] rest
  | newline {rest : List Char} (h : previous ∉ statementEnds) :
      Dropped flags previous ['\n'] rest
  | comment {w rest : List Char} (hflag : flags keepComments = false) (h : IsComment w rest) :
      Dropped flags previous w rest

/-- The gaps of Go are made of blanks, of newlines that do not end a statement and of comments that
are not kept. -/
theorem dropped_of_drops {previous : String} {rest : List Char}
    (h : lexicon.Drops (profile flags) previous w rest) : Dropped flags previous w rest := by
  cases h with
  | discard h => exact .blank (by simpa [lexicon, CharClass.oneOf, CharClass.contains] using h)
  | between h => exact h.elim
  | @scanned token _ _ h hblank =>
    change (insertSemicolon previous token).isBlank at hblank
    rcases insertSemicolon_cases previous token with ⟨-, heq⟩ | ⟨-, -, heq⟩ | ⟨hkind, hends, -⟩
    · simp only [heq, Token.isBlank, Bool.and_eq_true, String.isEmpty_iff] at hblank
      rcases h with h | ⟨hword, h⟩ | ⟨-, hflag, hcomment⟩
      · exact absurd (hblank.2 ▸ h) isKinds_kinds.empty
      · exact absurd (hblank.2 ▸ h ▸ hword) (by decide)
      · exact .comment hflag hcomment
    · simp [heq, Token.isBlank] at hblank
    · obtain rfl := eq_newline_of_scanned h hkind
      exact .newline hends

/-- Every comment that the text contains is shorter than the range of the numbers of a position. -/
def HasShortComments (text : List Char) : Prop :=
  ∀ w rest, IsComment w rest → w ++ rest <:+ text → w.length < UInt32.size

theorem hasShortComments_of_length {text : List Char} (h : text.length < UInt32.size) :
    HasShortComments text := by
  intro w rest _ hrest
  have hle := hrest.length_le
  rw [List.length_append] at hle
  omega

/-- Comments are the only pieces of a text that can be too long to be dropped. -/
theorem dropsVisibly {text : List Char} (h : flags keepComments = true ∨ HasShortComments text) :
    lexicon.DropsVisibly (profile flags) text := by
  intro previous w rest hdrops hrest
  cases dropped_of_drops hdrops with
  | blank => exact (by decide : 1 < UInt32.size)
  | newline => exact (by decide : 1 < UInt32.size)
  | comment hflag hcomment =>
    rcases h with hkept | hshort
    · exact absurd (hflag.symm.trans hkept) Bool.false_ne_true
    · exact hshort w rest hcomment hrest

theorem kind_ne_of_scanned {token : Token} {rest : List Char}
    (h : (profile flags).scanned token w rest) : token.kind ≠ Kind.endOfText := by
  intro hkind
  rcases h with h | ⟨hword, h⟩ | ⟨h, -⟩
  · exact absurd (hkind ▸ h) (by decide)
  · exact absurd (hkind ▸ h ▸ hword) (by decide)
  · simp [Token.isBlank, hkind, Kind.endOfText] at h

/-- No token of Go is taken for the end of the text. -/
theorem isEnd_of_makes {previous : String} {token : Token} {rest : List Char}
    (h : Lexicon.Makes (profile flags) previous token w rest) : token.isEnd = false := by
  cases h with
  | between h => exact h.elim
  | @scanned token _ _ h =>
    refine beq_eq_false_iff_ne.mpr ?_
    change (insertSemicolon previous token).kind ≠ _
    rcases insertSemicolon_cases previous token with ⟨-, heq⟩ | ⟨-, -, heq⟩ | ⟨-, -, heq⟩ <;>
      rw [heq]
    · exact kind_ne_of_scanned h
    · exact (by decide : ";" ≠ Kind.endOfText)
    · exact (by decide : "" ≠ Kind.endOfText)

end Lexing.Language.Go
