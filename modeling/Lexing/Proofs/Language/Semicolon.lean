import Lexing.Proofs.Language.Failure
import Lexing.Proofs.Lexicon.Hook
import Mathlib.Data.List.Chain

/-!
# Semicolons of Go as a pass over the tokens

A newline becomes a semicolon if the token before it may end a statement. The hook decides that
while the text is scanned, from the kind of the token that was returned last. The result is that of
a pass over the tokens which the rules make without the hook, whether comments are kept or not.

## Main definitions

* `Language.Go.insertSemicolons` : the pass.
* `Language.Go.IsInserted` : the semicolon stands for a newline.

## Main results

* `Language.Go.filter_insertSemicolons` : comments make no difference to the pass.
* `Language.Go.isChain_insertSemicolons` : no semicolon is inserted after an inserted one.
* `Language.Go.tokens_eq_insertSemicolons` : the tokens of Go are those of the pass.
-/

namespace Lexing

open Scanner

namespace Language.Go

/-! ### The pass -/

/-- The tokens, walked from left to right with the kind `previous` of the last one that was returned
and is no comment. A newline is replaced by a semicolon if that kind may end a statement, and
dropped otherwise. -/
def insertSemicolons : String → List Token → List Token
  | _, [] => []
  | previous, token :: tokens =>
    if token.kind = "\n" then
      if previous ∈ statementEnds then
        { token with kind := ";", value := ";" } :: insertSemicolons ";" tokens
      else insertSemicolons previous tokens
    else token :: insertSemicolons (kindAfter previous token) tokens

/-- The token is a semicolon that stands for a newline. -/
def IsInserted (token : Token) : Prop :=
  token.kind = ";" ∧ token.literal = "\n"

variable {flags : Flags} {previous : String} {tokens : List Token}

/-- The pass is the hook applied from left to right. -/
theorem finishAll_insertSemicolon (h : ∀ token ∈ tokens, token.isBlank = false) :
    finishAll insertSemicolon previous tokens = insertSemicolons previous tokens := by
  induction tokens generalizing previous with
  | nil => rfl
  | cons token tokens ih =>
    obtain ⟨hblank, h⟩ := List.forall_mem_cons.mp h
    rw [finishAll, insertSemicolons]
    rcases insertSemicolon_cases previous token with ⟨hkind, heq⟩ | ⟨hkind, hends, heq⟩ |
      ⟨hkind, hends, heq⟩
    · rw [heq, hblank, if_neg Bool.false_ne_true, if_neg hkind, ih h]
    · rw [heq, if_neg (by simp [Token.isBlank]), if_pos hkind, if_pos hends, ih h]
      rfl
    · rw [heq, if_pos (by decide), if_pos hkind, if_neg hends, ih h]

/-- Leaving out comments before the pass or after it gives the same tokens. -/
theorem filter_insertSemicolons (previous : String) (tokens : List Token) :
    (insertSemicolons previous tokens).filter (·.kind ≠ Kind.comment) =
      insertSemicolons previous (tokens.filter (·.kind ≠ Kind.comment)) := by
  induction tokens generalizing previous with
  | nil => rfl
  | cons token tokens ih =>
    rw [insertSemicolons]
    by_cases hcomment : token.kind = Kind.comment
    · have hkind : token.kind ≠ "\n" := hcomment ▸ by decide
      rw [if_neg hkind, List.filter_cons_of_neg (by simp [hcomment]),
        List.filter_cons_of_neg (by simp [hcomment]), kindAfter, if_pos hcomment, ih]
    · rw [List.filter_cons_of_pos (by simpa using hcomment), insertSemicolons]
      split
      · split
        · rw [List.filter_cons_of_pos (by simp [Kind.comment]), ih]
        · exact ih previous
      · rw [List.filter_cons_of_pos (by simpa using hcomment), ih]

/-- A pass begins with an inserted semicolon only after the end of a statement. -/
theorem mem_statementEnds_of_isInserted (h : ∀ token ∈ tokens, token.kind = ";" → token.literal = ";")
    {first : Token} (hfirst : first ∈ (insertSemicolons previous tokens).head?)
    (hinserted : IsInserted first) : previous ∈ statementEnds := by
  induction tokens with
  | nil => cases hfirst
  | cons token tokens ih =>
    obtain ⟨htoken, h⟩ := List.forall_mem_cons.mp h
    rw [insertSemicolons] at hfirst
    split at hfirst
    · split at hfirst
      · assumption
      · exact ih h hfirst
    · obtain rfl : token = first := Option.some.inj hfirst
      exact absurd ((htoken hinserted.1).symm.trans hinserted.2) (by decide)

/-- Where there are no comments, no two inserted semicolons stand next to each other. -/
theorem isChain_insertSemicolons (h : ∀ token ∈ tokens, token.kind = ";" → token.literal = ";") :
    (insertSemicolons previous tokens).IsChain fun t u => ¬(IsInserted t ∧ IsInserted u) := by
  induction tokens generalizing previous with
  | nil => exact .nil
  | cons token tokens ih =>
    obtain ⟨htoken, h⟩ := List.forall_mem_cons.mp h
    rw [insertSemicolons]
    split
    · split
      · refine List.isChain_cons.mpr ⟨fun next hnext hboth => ?_, ih h⟩
        exact absurd (mem_statementEnds_of_isInserted h hnext hboth.2) (by decide)
      · exact ih h
    · refine List.isChain_cons.mpr ⟨fun next _ hboth => ?_, ih h⟩
      exact absurd ((htoken hboth.1.1).symm.trans hboth.1.2) (by decide)

/-! ### The tokens before the hook -/

/-- Only newlines are dropped by the hook. -/
theorem eq_newline_of_dropped {token : Token} {w rest : List Char}
    (h : (profile flags).scanned token w rest) (hblank : token.isBlank = false)
    (hdropped : (insertSemicolon previous token).isBlank = true) : w = ['\n'] := by
  by_cases hkind : token.kind = "\n"
  · exact eq_newline_of_scanned h hkind
  · rw [insertSemicolon_of_ne hkind, hblank] at hdropped
    exact absurd hdropped Bool.false_ne_true

theorem isMild_profile : (profile flags).IsMild where
  isEnd h := beq_eq_false_iff_ne.mpr (kind_ne_of_scanned h)
  isEnd_finish h previous := isEnd_of_makes (.scanned h : Lexicon.Makes _ previous _ _ _)
  finish_of_isBlank h previous := insertSemicolon_of_isBlank h
  finish_error h previous := insertSemicolon_of_ne (h ▸ by decide)
  length_lt h hblank _ hdropped := by
    rw [eq_newline_of_dropped h hblank hdropped]
    exact (by decide : 1 < UInt32.size)

/-- A token whose kind is an operator or a newline has this text as its literal. -/
theorem literal_eq_kind_of_scanned {token : Token} {w rest : List Char}
    (h : (profile flags).scanned token w rest) (hliteral : token.literal = String.ofList w)
    (hkind : token.kind ∈ operators) : token.literal = token.kind := by
  rcases h with h | ⟨-, h⟩ | ⟨h, -⟩
  · exact absurd h ((by decide : ∀ kind ∈ operators, kind ∉ kinds) _ hkind)
  · rw [hliteral, h]
  · exact absurd (Token.kind_of_isBlank h ▸ hkind) (by decide)

/-- The tokens before the hook are not blank, and operators and newlines are kinds of their own. -/
theorem forall_mem_raw {s : Scanner} (hs : s.IsFresh) {raw : List Token}
    (hrun : lexicon.unhooked.Run flags s raw) : ∀ token ∈ raw, token.isBlank = false ∧
      (token.kind ∈ operators → token.literal = token.kind) := by
  have hfits : lexicon.Fits flags (profile flags) := fits_lexicon
  refine hfits.unhooked.forall_mem_of_run ?_ ?_ hs hrun
  · intro previous token w rest hmade hblank hliteral
    cases hmade with
    | between h => exact h.elim
    | scanned h => exact ⟨hblank, literal_eq_kind_of_scanned h hliteral⟩
  · intro s report
    exact ⟨rfl, fun h => absurd h (by decide : Kind.error ∉ operators)⟩

/-- The run of Go is a pass over the run of its rules without the hook. -/
theorem run_iff_insertSemicolons {s : Scanner} (hs : s.IsFresh) (hstart : s.previousKind = "") :
    lexicon.Run flags s tokens ↔
      ∃ raw, lexicon.unhooked.Run flags s raw ∧ tokens = insertSemicolons "" raw := by
  have hfits : lexicon.Fits flags (profile flags) := fits_lexicon
  have hsame : s.setPreviousKind "" = s := congrArg s.setPreviousKind hstart.symm
  have hiff : lexicon.Run flags (s.setPreviousKind "") tokens ↔ ∃ raw,
      lexicon.unhooked.Run flags s raw ∧ tokens = finishAll insertSemicolon "" raw :=
    hfits.finishes isBuiltIn_of_mem_rules rfl isMild_profile hs "" tokens
  rw [hsame] at hiff
  refine hiff.trans (exists_congr fun raw => and_congr_right fun hrun => ?_)
  rw [finishAll_insertSemicolon fun token htoken => (forall_mem_raw hs hrun token htoken).1]

/-- The tokens of Go are those of a pass over the tokens which its rules make without the hook, from
any input and whether comments are kept or not. The pass keeps the literal of a newline, which is
the newline itself, and its position. No two inserted semicolons stand next to each other, comments
left out, and comments neither cause a semicolon nor suppress one. The tokens exist, unless comments
are not kept and one of them is so long that it may bring the position round. -/
theorem tokens_eq_insertSemicolons (flags : Flags) (name : String) (input : CharStream) :
    (∀ tokens, lexicon.tokens flags (ofStream name input) = .ok tokens ↔
      ∃ raw, lexicon.unhooked.tokens flags (ofStream name input) = .ok raw ∧
        tokens = insertSemicolons "" raw) ∧
    (∀ raw, lexicon.unhooked.tokens flags (ofStream name input) = .ok raw →
      (∀ token ∈ raw, token.kind ∈ ["\n", ";"] → token.literal = token.kind) ∧
      ((insertSemicolons "" raw).filter (·.kind ≠ Kind.comment)).IsChain
        (fun t u => ¬(IsInserted t ∧ IsInserted u)) ∧
      (insertSemicolons "" raw).filter (·.kind ≠ Kind.comment) =
        insertSemicolons "" (raw.filter (·.kind ≠ Kind.comment))) ∧
    (flags keepComments = true ∨ HasShortComments input.drain.1 →
      ∃ raw, lexicon.unhooked.tokens flags (ofStream name input) = .ok raw ∧
        lexicon.tokens flags (ofStream name input) = .ok (insertSemicolons "" raw)) := by
  have hs := isFresh_ofStream name input
  have hfits : lexicon.Fits flags (profile flags) := fits_lexicon
  have hiff (tokens : List Token) : lexicon.tokens flags (ofStream name input) = .ok tokens ↔
      ∃ raw, lexicon.unhooked.tokens flags (ofStream name input) = .ok raw ∧
        tokens = insertSemicolons "" raw := by
    rw [hfits.tokens_eq_iff hs, run_iff_insertSemicolons hs (previousKind_ofStream name input)]
    exact exists_congr fun raw => and_congr_left' (hfits.unhooked.tokens_eq_iff hs).symm
  refine ⟨hiff, fun raw hraw => ?_, fun hshort => ?_⟩
  · have hmem := forall_mem_raw hs ((hfits.unhooked.tokens_eq_iff hs).mp hraw)
    refine ⟨fun token htoken hkind => (hmem token htoken).2 ?_, ?_, filter_insertSemicolons "" raw⟩
    · exact (by decide : ∀ kind ∈ ["\n", ";"], kind ∈ operators) _ hkind
    · rw [filter_insertSemicolons]
      refine isChain_insertSemicolons fun token htoken hkind => ?_
      exact ((hmem token (List.mem_filter.mp htoken).1).2 (hkind ▸ by decide)).trans hkind
  · obtain ⟨tokens, htokens, -⟩ := hfits.exists_tokens hs
      (dropsVisibly (by rwa [upcoming_ofStream]))
    obtain ⟨raw, hraw, rfl⟩ := (hiff tokens).mp htokens
    exact ⟨raw, hraw, htokens⟩

/-- The text `a//b` and two newlines. -/
def newlineSample : ByteSource :=
  { reads := [.bytes [0x61, 0x2F, 0x2F, 0x62, 0x0A, 0x0A]] }

/-- The first newline becomes a semicolon behind the comment, and the second is dropped. -/
theorem tokens_eq_insertSemicolons_newlineSample :
    ∃ raw, lexicon.unhooked.tokens .off (ofStream "f" (.ofSource newlineSample)) = .ok raw ∧
      raw.map (·.kind) = [Kind.identifier, "\n", "\n"] ∧
      lexicon.tokens .off (ofStream "f" (.ofSource newlineSample)) =
        .ok (insertSemicolons "" raw) ∧
      (insertSemicolons "" raw).map (·.kind) = [Kind.identifier, ";"] := by
  obtain ⟨raw, hraw, htokens⟩ :=
    (tokens_eq_insertSemicolons .off "f" (.ofSource newlineSample)).2.2
      (.inr (hasShortComments_of_length (by decide)))
  have hkinds : (lexicon.unhooked.tokens .off (ofStream "f" (.ofSource newlineSample))).map
      (·.map (·.kind)) = .ok [Kind.identifier, "\n", "\n"] := by decide +kernel
  have hkinds' : (lexicon.tokens .off (ofStream "f" (.ofSource newlineSample))).map
      (·.map (·.kind)) = .ok [Kind.identifier, ";"] := by decide +kernel
  rw [hraw] at hkinds
  rw [htokens] at hkinds'
  exact ⟨raw, hraw, Except.ok.inj hkinds, htokens, Except.ok.inj hkinds'⟩

end Language.Go

end Lexing
