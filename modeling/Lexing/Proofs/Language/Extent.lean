import Lexing.Proofs.Language.Go
import Lexing.Proofs.Language.JsonString
import Lexing.Proofs.Lexicon.CommentEnding

/-!
# How long the comments of Go may be

The tokens of JSON exist for every text, because only single code points are dropped. The same is
true of Go if comments are kept. A comment that is not kept is dropped in one piece. If it is as
long as the range of the numbers of a position, the position comes round to where the comment began,
and the scan is given up.

## Main definitions

* `Language.Json.blanks`, `Language.Go.longComment` : texts of any length.

## Main results

* `Language.exists_dropsVisibly`, `Language.exists_tokens` : texts whose comments are not too long.
* `Language.Json.exists_tokens_blanks` : a string after any number of blanks.
* `Language.Go.tokens_longComment` : a comment that is too long.
-/

namespace Lexing

open Scanner

namespace Language

variable {x : Lexicon} {flags : Flags} {s : Scanner} {text : List Char}

/-- Scans with JSON, and with Go if comments are kept, drop nothing that is too long. Other scans
with Go do not either, if comments are short. -/
theorem exists_dropsVisibly (hx : x = Go.lexicon ∨ x = Json.lexicon)
    (h : x = Json.lexicon ∨ flags Go.keepComments = true ∨ Go.HasShortComments text) :
    ∃ p, x.Fits flags p ∧ x.DropsVisibly p text := by
  rcases hx with rfl | rfl
  · rcases h with hjson | h
    · rw [hjson]
      exact ⟨_, Json.fits_lexicon, Json.dropsVisibly text⟩
    · exact ⟨_, Go.fits_lexicon, Go.dropsVisibly h⟩
  · exact ⟨_, Json.fits_lexicon, Json.dropsVisibly text⟩

theorem exists_tokens (hx : x = Go.lexicon ∨ x = Json.lexicon) (hs : s.IsFresh)
    (h : x = Json.lexicon ∨ flags Go.keepComments = true ∨
      Go.HasShortComments s.upcoming.chars) : ∃ tokens, x.tokens flags s = .ok tokens := by
  obtain ⟨p, hfits, hvisible⟩ := exists_dropsVisibly hx h
  obtain ⟨tokens, htokens, -⟩ := hfits.exists_tokens hs hvisible
  exact ⟨tokens, htokens⟩

/-! ### Blanks -/

/-- The source of a string without content after `n` blanks. -/
def Json.blanks (n : Nat) : ByteSource :=
  .ofString (String.ofList (List.replicate n ' ' ++ ['"', '"']))

theorem Json.text_blanks (n : Nat) : (blanks n).text = List.replicate n ' ' ++ ['"', '"'] := by
  have hup := upcoming_ofString "" (String.ofList (List.replicate n ' ' ++ ['"', '"']))
  rw [← upcoming_ofSource "", blanks]
  exact hup.trans String.toList_ofList

/-- The first token of a string after blanks is the string. -/
theorem Json.exists_tokens_blanks (flags : Flags) (name : String) (n : Nat) :
    ∃ token rest, lexicon.tokens flags (ofSource name (blanks n)) = .ok (token :: rest) ∧
      token.literal.toList = ['"', '"'] := by
  have hs := isFresh_ofSource name (blanks n)
  have hup := (upcoming_ofSource name (blanks n)).trans (text_blanks n)
  have hgap : ∀ c ∈ List.replicate n ' ', lexicon.discards.contains c = true := by
    intro c hc
    rw [List.eq_of_mem_replicate hc]
    decide
  have hfits : lexicon.Fits flags profile := fits_lexicon
  obtain ⟨t, hpass, htext, hrun⟩ := hfits.exists_passes_discarded rfl hs hup hgap
  obtain ⟨tokens, htokens⟩ := hfits.exists_run hpass.isFresh (dropsVisibly _)
  obtain ⟨token, u, hnext, hmore, -, hread⟩ := exists_next flags hpass.isFresh htext
  obtain ⟨rest, rfl, -⟩ := htokens.of_next hnext hmore
  obtain ⟨-, -, -, hliteral, -⟩ :=
    hread ['"', '"'] [] ⟨[], List.forall_mem_nil _, rfl, rfl, List.prefix_refl _⟩
  refine ⟨token, rest, hfits.tokens_eq_of_run hs (hrun _ htokens), ?_⟩
  rw [hliteral, String.toList_ofList]

/-! ### Comments -/

/-- The text of a comment of `n` letters between its marks. -/
def Go.longComment (n : Nat) : List Char :=
  ['/', '*'] ++ List.replicate n 'a' ++ ['*', '/']

/-- The comment ends with its last mark. -/
theorem Go.isFirstMatch_longComment (n : Nat) : IsFirstMatch ["*/"]
    (List.replicate n 'a' ++ ['*', '/']) (List.replicate n 'a') ['*', '/'] [] where
  text_eq := rfl
  ne_nil := List.cons_ne_nil _ _
  longest := WordTree.isLongestMatch_ofWords ["*/"] _
  first k hk word hword hprefix := by
    rw [List.length_replicate] at hk
    obtain ⟨m, hm⟩ : ∃ m, n - k = m + 1 := Nat.exists_eq_add_one.mpr (by omega)
    rw [List.mem_singleton.mp hword, List.drop_append_of_le_length (by simp; omega),
      List.drop_replicate, hm, List.replicate_succ] at hprefix
    exact absurd (List.cons_prefix_cons.mp hprefix).1 (by decide)

/-- The comment of a scanner at its beginning is read, and it leaves a blank token. -/
theorem Go.exists_read_longComment (hoff : flags keepComments = false) (hs : s.IsFresh) {n : Nat}
    (hup : s.upcoming.chars = longComment n) :
    ∃ t, lexicon.read flags s = .ok t ∧ s.Consumes (longComment n) t ∧
      t.checkValue.assembled.isBlank = true := by
  have hlongest : IsLongestMatch ["/*"] (['/', '*'] ++ (List.replicate n 'a' ++ ['*', '/'])) 2 :=
    WordTree.isLongestMatch_ofWords ["/*"] _
  obtain ⟨t, ht⟩ := (CommentRule.exists_reads_of_inclusive (r := blockComment) hs rfl (by decide)
    rfl rfl (List.cons_ne_nil _ _) (hup.trans (List.append_assoc ..)) hlongest flags).1 _ _ _
      (isFirstMatch_longComment n)
  obtain ⟨hvalue, hkind, -⟩ := ht.dropped hoff
  refine ⟨t, ?_, ht.consumes, isBlank_assembled.mpr ⟨hvalue, hkind⟩⟩
  have hfirst : Rule.evalFirst flags lexicon.rules s = .ok (true, t) := by
    change Rule.evalFirst flags (.comment blockComment :: rules.tail) s = _
    rw [Rule.evalFirst_cons, ht.eval]
    rfl
  rw [Lexicon.read, hfirst]
  rfl

/-- A comment of Go that is not kept and brings the position round is a fault. -/
theorem Go.tokens_longComment (hoff : flags keepComments = false) (hs : s.IsFresh) {n : Nat}
    (hup : s.upcoming.chars = longComment n) (hn : n + 4 = UInt32.size) :
    lexicon.tokens flags s = .error (.noProgress s.position) := by
  obtain ⟨t, hread, hconsumes, hblank⟩ := exists_read_longComment hoff hs hup
  have hstay : s.whileIn lexicon.discards .discard = s :=
    whileIn_of_not_isIn _ (by rw [isIn, Scanner.current?_eq, hup]; rfl)
  have hend : s.atEnd = false := by
    rw [Scanner.atEnd_eq, hup]
    rfl
  have hposition : t.renew.position = s.position := by
    rw [renew_eq, hconsumes.position]
    exact s.position.advanceAll_of_line (by simp [longComment]) (by simp [longComment]; omega)
  have hfits : lexicon.Fits flags (profile flags) := fits_lexicon
  have hnext := hfits.next_of_read rfl hs (hstay.symm ▸ hend) (hstay.symm ▸ hread)
  rw [show (profile flags).finish = insertSemicolon from rfl, insertSemicolon_of_isBlank hblank,
    if_pos hblank, hstay, Lexicon.ifMoved_of_eq hposition] at hnext
  exact hfits.tokens_eq_of_breaks hs (.fault hnext)

end Language

end Lexing
