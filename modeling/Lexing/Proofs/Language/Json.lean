import Lexing.Language.Json
import Lexing.Proofs.Lexicon.Kinds
import Lexing.Proofs.Lexicon.Pass

/-!
# The tokens and gaps of JSON

## Main definitions

* `Language.Json.kinds` : the kinds of tokens.
* `Language.Json.Dropped` : what may stand between tokens.

## Main results

* `Language.Json.fits_lexicon` : every token has one of the kinds.
* `Language.Json.isDirect` : every token is handed out as it is.
* `Language.Json.dropped_of_drops` : gaps are made of the four blanks.
-/

namespace Lexing

open Scanner

namespace Language.Json

/-- The kinds of tokens. -/
def kinds : List String :=
  [Kind.illegal, Kind.string, Kind.integer, Kind.real] ++ words

/-- The profile of JSON: every token has one of the kinds, and no rule runs between tokens. -/
def profile : Profile where
  scanned := fun token _ _ => token.kind ∈ kinds
  between := fun _ _ _ => False
  finish := fun _ token => token

/-- The code points that may stand between tokens. -/
inductive Dropped : List Char → List Char → Prop
  | blank {c : Char} {rest : List Char} (h : c ∈ [' ', '\n', '\r', '\t']) : Dropped [c] rest

variable {flags : Flags}

theorem isKinds_kinds : IsKinds kinds :=
  ⟨by decide, by decide⟩

/-- Every token of JSON has one of the kinds. -/
theorem fits_lexicon : lexicon.Fits flags profile where
  rules := by
    have hstring : (Rule.quotation string escapes).IsSound flags (Emits profile.scanned) :=
      Rule.isSound_quotation_kind isKinds_kinds (by decide) (by simp [escapes, Rule.IsEscape])
    have hnumber : (Rule.number number none []).IsSound flags (Emits profile.scanned) :=
      Rule.isSound_number_kind isKinds_kinds ⟨by decide, by decide, fun _ h => nomatch h⟩
        (by simp) (by simp)
    have hwords : (Rule.literal { words := .ofWords words }).IsSound flags
        (Emits profile.scanned) := by
      refine (Rule.isSound_word words).mono fun w t h => ?_
      exact show _ ∈ kinds from h.2 ▸ List.mem_append_right _ h.1
    simpa [lexicon] using ⟨hstring, hnumber, hwords⟩
  discardRule _ hr := by simp [lexicon] at hr
  unexpected s _ _ _ := isKinds_kinds.hasKindIn (.inr s.kind_keepUnexpected)
  beforeToken _ := rfl
  afterToken _ _ := rfl
  noMatch _ := rfl
  finish _ _ _ := ⟨rfl, rfl⟩

/-- No token of JSON is taken for the end of the text. -/
theorem isEnd_of_makes {previous : String} {token : Token} {w rest : List Char}
    (h : Lexicon.Makes profile previous token w rest) : token.isEnd = false := by
  have hends : Kind.endOfText ∉ kinds := by decide
  cases h with
  | between h => exact h.elim
  | @scanned token _ _ h =>
    refine beq_eq_false_iff_ne.mpr fun hkind => hends ?_
    exact hkind ▸ h

/-- Every token of JSON that is scanned is handed out as it is. -/
theorem isDirect : lexicon.IsDirect flags profile where
  fits := fits_lexicon
  discardRule := rfl
  finish _ _ := rfl
  between _ _ _ := id
  isBlank token _ _ h := by
    have hkind : token.kind ≠ "" := fun hkind => isKinds_kinds.empty (hkind ▸ h)
    simp [Token.isBlank, hkind]
  isEnd _ _ _ h := isEnd_of_makes (show Lexicon.Makes profile "" _ _ _ from .scanned h)

theorem dropsVisibly (text : List Char) : lexicon.DropsVisibly profile text :=
  (isDirect : lexicon.IsDirect .off profile).dropsVisibly text

/-- The gaps of JSON are made of blanks. -/
theorem dropped_of_drops {previous : String} {w rest : List Char}
    (h : lexicon.Drops profile previous w rest) : Dropped w rest := by
  cases h with
  | discard h =>
    exact .blank (by simpa [lexicon, discards, CharClass.oneOf, CharClass.contains] using h)
  | between h => exact h.elim
  | @scanned token _ _ h hblank =>
    have hempty := isKinds_kinds.empty
    simp only [profile, Token.isBlank, Bool.and_eq_true, String.isEmpty_iff] at hblank
    exact absurd (show token.kind ∈ kinds from h) (hblank.2 ▸ hempty)

end Language.Json

end Lexing
