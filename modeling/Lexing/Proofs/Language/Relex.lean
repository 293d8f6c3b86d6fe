import Lexing.Proofs.Language.Report
import Lexing.Proofs.Language.Semicolon
import Lexing.Proofs.Lexicon.Replay

/-!
# Scanning the literals of Go and JSON again

A token of Go or JSON is cut out of a text with regard to what comes after it: an operator is the
longest one, an exponent needs digits, and a number after a lead is no number without them. Where a
blank is put between the literals, the same cuts are made, because no rule takes a blank for part of
a word, a name or a number. What becomes of a newline depends on the token before it, which is the
same again.

## Main results

* `Language.Go.isRepeatable`, `Language.Json.isRepeatable` : the two lexicons find their tokens again.
* `Language.literals_scan_alike` : the literals of a text with blanks between them.
-/

namespace Lexing

open Scanner

/-- The words of a tree have no blank if the words that it was made of have none. -/
theorem WordTree.blank_not_mem {words : List String} (h : ∀ word ∈ words, ' ' ∉ word.toList)
    (w : List Char) (hw : (WordTree.ofWords words).contains w) : ' ' ∉ w := by
  obtain ⟨word, hword, rfl, -⟩ := contains_ofWords.mp hw
  exact h word hword

namespace Language

variable {flags : Flags}

/-! ### Go -/

namespace Go

theorem isFaithful_escapes (asByte : Bool) :
    ∀ r ∈ escapes asByte, IsFaithful (r.eval flags) := by
  simp only [escapes, List.forall_mem_cons]
  exact ⟨Rule.isFaithful_charEscape (by decide),
    Rule.isFaithful_hexEscape (show 'x' ≠ ' ' by decide),
    Rule.isFaithful_hexEscape (show 'u' ≠ ' ' by decide),
    Rule.isFaithful_hexEscape (show 'U' ≠ ' ' by decide), Rule.isFaithful_octalEscape _, by simp⟩

theorem replays_quotation {q : Quotation} (hq : q.LacksBlank) (asByte : Bool) :
    (Rule.quotation q (escapes asByte)).Replays flags :=
  Rule.replays_quotation hq (fun r hr => (isEscape_escapes asByte r hr).isSteady)
    (isFaithful_escapes asByte)

/-- A comment that is not kept is dropped, unless something is reported about it. -/
theorem replays_comment (hflag : flags keepComments = false) {r : CommentRule}
    (hr : r = blockComment ∨ r = lineComment) : (Rule.comment r).Replays flags := by
  refine Rule.replays_comment ?_ fun s u hs hu hclean => ?_
  · rcases hr with rfl | rfl <;> exact WordTree.blank_not_mem (by decide)
  · have htags : (Rule.comment r).Tags flags := by
      rcases hr with rfl | rfl <;> exact Rule.tags_comment rfl rfl (by decide) (by decide)
    obtain ⟨htagged, -⟩ := htags s u hs (by rw [Rule.eval_comment, hu]; rfl)
    obtain ⟨w, -, hsteps⟩ := CommentRule.assembles_attempt hu
    rcases attempt_of_not_kept hr hflag hs hsteps.consumes hu with hkind | ⟨hvalue, hkind, -⟩
    · exact absurd hclean (htagged.illegal_iff.mpr hkind)
    · exact ⟨hvalue, hkind⟩

theorem replays_number {f : Numeral} (hf : f.LacksBlank) {lead : Option Rule}
    (hlead : ∀ r ∈ lead, IsFaithful (r.eval flags))
    (hpersistent : ∀ r ∈ lead, IsPersistent (r.eval flags))
    (hsteady : ∀ r ∈ lead, r.IsSteady flags fun _ => True) :
    (Rule.number f lead [imaginarySuffix]).Replays flags := by
  refine Rule.replays_number hf hlead hpersistent hsteady ?_ ?_
  · rw [List.forall_mem_singleton]
    exact Rule.isFaithful_literal (WordTree.blank_not_mem (by decide))
  · rw [List.forall_mem_singleton]
    exact Rule.isSteady_literal fun _ _ => trivial

/-- A number after one of two leads, which are of one length. -/
theorem replays_afterLead {f : Numeral} (hf : f.LacksBlank) {leads : List String}
    (hblank : ∀ lead ∈ leads, ' ' ∉ lead.toList)
    (hlength : ∀ lead ∈ leads, lead.toList.length = 2) : (afterLead f leads).Replays flags := by
  have hwords := WordTree.blank_not_mem hblank
  have hlong (w : List Char) (hw : (WordTree.ofWords leads).contains w) : w.length = 2 := by
    obtain ⟨lead, hlead, rfl, -⟩ := WordTree.contains_ofWords.mp hw
    exact hlength lead hlead
  refine replays_number hf ?_ ?_ ?_ <;> simp only [Option.mem_some_iff, forall_eq']
  · exact Rule.isFaithful_literal hwords
  · exact Rule.isPersistent_literal hwords fun w w' hw hw' => (hlong w hw).trans (hlong w' hw').symm
  · exact Rule.isSteady_literal fun _ _ => trivial

theorem replays_of_mem_rules (hflag : flags keepComments = false) :
    ∀ r ∈ lexicon.rules, r.Replays flags := by
  change ∀ r ∈ rules, _
  simp only [rules, List.forall_mem_cons]
  exact ⟨replays_comment hflag (.inl rfl), replays_comment hflag (.inr rfl),
    replays_quotation (by decide) false,
    replays_afterLead (by decide) (by decide) (by decide),
    replays_afterLead (by decide) (by decide) (by decide),
    replays_afterLead (by decide) (by decide) (by decide),
    replays_number (by decide) (by simp) (by simp) (by simp),
    replays_quotation (by decide) true,
    Rule.replays_quotation (by decide) (by simp) (by simp),
    Rule.replays_name (by decide) (by decide),
    Rule.replays_literal (WordTree.blank_not_mem (by decide)), by simp⟩

theorem isRepeatable (hflag : flags keepComments = false) :
    lexicon.IsRepeatable flags (profile flags) where
  fits := fits_lexicon
  discardRule := rfl
  rules := replays_of_mem_rules hflag
  blank := by decide
  isMild := isMild_profile
  repeats {t u} h previous := by
    change (insertSemicolon previous t).Repeats (insertSemicolon previous u)
    rw [insertSemicolon, insertSemicolon, h.kind]
    split
    · exact h
    · split
      · exact ⟨rfl, rfl, h.literal, h.diagnostics⟩
      · exact ⟨rfl, rfl, rfl, fun _ => rfl⟩
  diagnostics {previous token} h := by
    change (insertSemicolon previous token).isBlank = false at h
    change (insertSemicolon previous token).diagnostics = _
    rcases insertSemicolon_cases previous token with ⟨-, heq⟩ | ⟨-, -, heq⟩ | ⟨-, -, heq⟩
    · rw [heq]
    · rw [heq]
    · simp [heq, Token.isBlank] at h

end Go

/-! ### JSON -/

namespace Json

theorem replays_of_mem_rules : ∀ r ∈ lexicon.rules, r.Replays flags := by
  have hsteady : ∀ r ∈ escapes, r.IsSteady flags fun _ => True := fun r hr =>
    Rule.IsEscape.isSteady (by revert r; simp [escapes, Rule.IsEscape])
  have hescapes : ∀ r ∈ escapes, IsFaithful (r.eval flags) := by
    simp only [escapes, List.forall_mem_cons]
    exact ⟨Rule.isFaithful_charEscape (by decide),
      Rule.isFaithful_hexEscape (show 'u' ≠ ' ' by decide), by simp⟩
  simp only [lexicon, List.forall_mem_cons]
  exact ⟨Rule.replays_quotation (by decide) hsteady hescapes,
    Rule.replays_number (by decide) (by simp) (by simp) (by simp) (by simp) (by simp),
    Rule.replays_literal (WordTree.blank_not_mem (by decide)), by simp⟩

theorem isMild_profile : profile.IsMild where
  isEnd h := isEnd_of_makes (show Lexicon.Makes profile "" _ _ _ from .scanned h)
  isEnd_finish h previous := isEnd_of_makes (.scanned h : Lexicon.Makes _ previous _ _ _)
  finish_of_isBlank _ _ := rfl
  finish_error _ _ := rfl
  length_lt _ hblank _ hdropped := absurd (hblank.symm.trans hdropped) Bool.false_ne_true

theorem isRepeatable : lexicon.IsRepeatable flags profile where
  fits := fits_lexicon
  discardRule := rfl
  rules := replays_of_mem_rules
  blank := by decide
  isMild := isMild_profile
  repeats h _ := h
  diagnostics _ := rfl

end Json

/-- The literals of the tokens of a text of Go or JSON, joined by blanks, are a text with the same
tokens up to their positions, if nothing is reported about the first text and comments are not kept.
A semicolon that stands for a newline has the newline as its literal. The tokens of the first text
exist, unless it is one of Go and has a comment so long that it may bring the position round. -/
theorem literals_scan_alike {x : Lexicon}
    (hx : x = Go.lexicon ∧ flags Go.keepComments = false ∨ x = Json.lexicon)
    (name again : String) (input : CharStream) :
    (∀ tokens, x.tokens flags (ofStream name input) = .ok tokens →
      (∀ token ∈ tokens, token.diagnostics = []) →
        ∃ tokens', x.tokens flags
            (ofString again (" ".intercalate (tokens.map (·.literal)))) = .ok tokens' ∧
          List.Forall₂ Token.Repeats tokens tokens') ∧
    (x = Json.lexicon ∨ Go.HasShortComments input.drain.1 →
      ∃ tokens, x.tokens flags (ofStream name input) = .ok tokens) := by
  obtain ⟨p, hp⟩ : ∃ p, x.IsRepeatable flags p := by
    rcases hx with ⟨rfl, hflag⟩ | rfl
    · exact ⟨_, Go.isRepeatable hflag⟩
    · exact ⟨_, Json.isRepeatable⟩
  have hs := isFresh_ofStream name input
  refine ⟨fun tokens htokens hclean => ?_, fun hshort => ?_⟩
  · have hrun := (hp.fits.tokens_eq_iff hs).mp htokens
    have ht (text : String) : (ofString again text).IsFresh := isFresh_ofSource ..
    have hprevious (text : String) :
        (ofString again text).previousKind = (ofStream name input).previousKind :=
      (previousKind_ofSource ..).trans (previousKind_ofStream name input).symm
    have hup := (upcoming_ofString again _).trans (toList_intercalate_literals tokens)
    obtain ⟨tokens', hrun', hrepeats⟩ :=
      hp.exists_run hs (ht _) (isClean_ofString again _) (hprevious _) hrun hclean hup
    exact ⟨tokens', hp.fits.tokens_eq_of_run (ht _) hrun', hrepeats⟩
  · rw [← upcoming_ofStream name input] at hshort
    exact exists_tokens (hx.imp_left And.left) hs (hshort.imp_right .inr)

/-- Exponents without digits, a comment that is dropped, and a newline that becomes a semicolon: the
six tokens are found again. -/
theorem literals_scan_alike_exponentSample :
    ∃ tokens tokens', Go.lexicon.tokens .off (ofString "f" "0x_1p+.5e//\n") = .ok tokens ∧
      tokens.map (·.kind) =
        [Kind.integer, Kind.identifier, "+", Go.floatKind, Kind.identifier, ";"] ∧
      Go.lexicon.tokens .off (ofString "g" "0x_1 p + .5 e \n") = .ok tokens' ∧
      List.Forall₂ Token.Repeats tokens tokens' := by
  have hdropped : Flags.off Go.keepComments = false := rfl
  have heval : (Go.lexicon.tokens .off (ofString "f" "0x_1p+.5e//\n")).map (fun tokens =>
      (tokens.map (·.kind), tokens.map (·.literal), tokens.all (·.diagnostics.isEmpty))) =
        .ok ([Kind.integer, Kind.identifier, "+", Go.floatKind, Kind.identifier, ";"],
          ["0x_1", "p", "+", ".5", "e", "\n"], true) := by decide +kernel
  obtain ⟨tokens, htokens, hlists⟩ := exists_of_bind_eq_ok heval
  obtain ⟨hkinds, hliterals, hall⟩ := Prod.mk.inj (Except.ok.inj hlists) |>.imp_right Prod.mk.inj
  have hclean : ∀ token ∈ tokens, token.diagnostics = [] := by simpa using hall
  obtain ⟨tokens', htokens', hrepeats⟩ :=
    (literals_scan_alike (.inl ⟨rfl, hdropped⟩) "f" "g"
      (CharStream.ofSource (.ofString "0x_1p+.5e//\n")).load).1 tokens htokens hclean
  rw [hliterals] at htokens'
  exact ⟨tokens, tokens', htokens, hkinds, htokens', hrepeats⟩

end Language

end Lexing
