import Lexing.Proofs.Language.Failure
import Lexing.Proofs.Lexicon.Report

/-!
# Diagnostics and kinds of the tokens of Go and JSON

Whoever looks at the kind of a token of Go or JSON knows whether it has diagnostics, and whether one
of them reports a failure of the byte source. That holds of every token, whatever the input is and
however often the flags are changed between calls.

## Main results

* `Language.Go.isCandid`, `Language.Json.isCandid` : the two lexicons make coherent tokens.
* `Language.kinds_tell_diagnostics` : every token is coherent.
-/

namespace Lexing

open Scanner

/-- A literal of a list of words does not make a token that is taken for an illegal one. -/
theorem Rule.tags_word {flags : Flags} {words : List String} (h : Kind.illegal ∉ words) :
    (Rule.literal { words := .ofWords words }).Tags flags := by
  refine tags_literal (by simp) (fun hword => h ?_) rfl
  obtain ⟨word, hmem, heq, -⟩ := WordTree.contains_ofWords.mp hword
  rwa [← String.toList_injective heq]

namespace Language

/-! ### Go -/

namespace Go

variable {flags : Flags}

/-- The kinds of numbers. -/
def IsNumberKind (kind : String) : Prop :=
  kind ∈ [Kind.integer, Kind.real, floatKind, imaginaryKind]

theorem tags_number {f : Numeral} {lead : Option Rule} (hf : f.Labels IsNumberKind)
    (hlead : ∀ r ∈ lead, r.IsLiteralWith IsNumberKind) :
    (Rule.number f lead [imaginarySuffix]).Tags flags := by
  refine Rule.tags_number hf (by decide : Kind.illegal ∉ _) (by decide : "" ∉ _) hlead ?_
  simp only [List.forall_mem_singleton]
  refine ⟨_, rfl, fun kind hkind => ?_⟩
  obtain rfl : imaginaryKind = kind := Option.some.inj hkind
  simp [IsNumberKind]

theorem tags_afterLead {f : Numeral} (hf : f.Labels IsNumberKind) (leads : List String) :
    (afterLead f leads).Tags flags := by
  refine tags_number hf fun r hr => ?_
  obtain rfl := Option.some.inj hr
  exact ⟨_, rfl, by simp⟩

theorem tags_of_mem_rules : ∀ r ∈ lexicon.rules, r.Tags flags := by
  have hlabels (f : Numeral) (hi : f.integerKind = Kind.integer)
      (hr : f.realKind = Kind.real ∨ f.realKind = floatKind) (hk : f.kind = none) :
      f.Labels IsNumberKind :=
    ⟨by simp [IsNumberKind, hi], by rcases hr with hr | hr <;> simp [IsNumberKind, hr], by simp [hk]⟩
  change ∀ r ∈ rules, _
  simp only [rules, List.forall_mem_cons]
  exact ⟨Rule.tags_comment rfl rfl (by decide) (by decide),
    Rule.tags_comment rfl rfl (by decide) (by decide),
    Rule.tags_quotation (by decide) (by decide) (isEscape_escapes false),
    tags_afterLead (hlabels hexadecimal rfl (.inr rfl) rfl) _,
    tags_afterLead (hlabels octal rfl (.inl rfl) rfl) _,
    tags_afterLead (hlabels binary rfl (.inl rfl) rfl) _,
    tags_number (hlabels decimal rfl (.inr rfl) rfl) (by simp),
    Rule.tags_quotation (by decide) (by decide) (isEscape_escapes true),
    Rule.tags_quotation (by decide) (by decide) (by simp),
    Rule.tags_name (by decide) (by decide) (by decide),
    Rule.tags_word (by decide), by simp⟩

/-- The hook keeps tokens coherent: a newline has no diagnostics, and a semicolon neither. -/
theorem isCoherent_insertSemicolon {previous : String} {token : Token} (h : token.IsCoherent) :
    (insertSemicolon previous token).IsCoherent := by
  rcases insertSemicolon_cases previous token with ⟨-, heq⟩ | ⟨hkind, -, heq⟩ | ⟨-, -, heq⟩ <;>
    rw [heq]
  · exact h
  · have hnone : token.diagnostics = [] := by
      refine not_not.mp fun hsome => ?_
      rcases h.diagnosed_iff.mp hsome with h | h
      · exact absurd (hkind.symm.trans h) (by decide)
      · exact absurd (hkind.symm.trans h) (by decide)
    exact Token.isCoherent_of_diagnostics_eq hnone (by decide : ";" ≠ Kind.illegal)
      (by decide : ";" ≠ Kind.error)
  · exact Token.isCoherent_of_diagnostics_eq rfl (by decide : "" ≠ Kind.illegal)
      (by decide : "" ≠ Kind.error)

theorem isCandid : lexicon.IsCandid profile where
  fits _ := fits_lexicon
  discardRule := rfl
  isBuiltIn := isBuiltIn_of_mem_rules
  tags _ := tags_of_mem_rules
  error {flags token w rest} h hkind := by
    rcases h with h | ⟨hword, h⟩ | ⟨h, -⟩
    · exact absurd (hkind ▸ h) (by decide)
    · exact absurd (hkind ▸ h ▸ hword) (by decide)
    · simp [Token.isBlank, hkind, Kind.error] at h
  finish := isCoherent_insertSemicolon

end Go

/-! ### JSON -/

namespace Json

theorem isCandid : lexicon.IsCandid fun _ => profile where
  fits _ := fits_lexicon
  discardRule := rfl
  isBuiltIn := isBuiltIn_of_mem_rules
  tags flags := by
    have hnumber : number.Labels (· ∈ [Kind.integer, Kind.real]) :=
      ⟨by decide, by decide, by simp [number, Numeral.scientific, Numeral.decimal, Numeral.integer]⟩
    simp only [lexicon, List.forall_mem_cons]
    exact ⟨Rule.tags_quotation (by decide) (by decide) (by simp [escapes, Rule.IsEscape]),
      Rule.tags_number hnumber (by decide) (by decide) (by simp) (by simp),
      Rule.tags_word (by decide), by simp⟩
  error h hkind := absurd (hkind ▸ h) (by decide : Kind.error ∉ kinds)
  finish h := h

end Json

/-- Every token of Go or JSON is coherent, from any input and under any flags: it carries
diagnostics if and only if it is illegal or an error, it is an error if and only if a diagnostic has
a cause, and the other diagnostics have the position of the token. The call may be made from any
scanner to which calls for tokens lead, each under flags of its own. It never fails with JSON, and
with Go only if comments are not kept and one of them is so long that it may bring the position
round. -/
theorem kinds_tell_diagnostics {x : Lexicon} (hx : x = Go.lexicon ∨ x = Json.lexicon)
    (name : String) (input : CharStream) {s : Scanner}
    (hs : x.Reached (ofStream name input) s) (flags : Flags) :
    (∀ token t, x.next flags s = .ok (token, t) → token.IsCoherent) ∧
    (x = Json.lexicon ∨ flags Go.keepComments = true ∨ Go.HasShortComments s.upcoming.chars →
      ∃ token t, x.next flags s = .ok (token, t) ∧ token.IsCoherent) := by
  obtain ⟨p, hcandid⟩ : ∃ p, x.IsCandid p := by
    rcases hx with rfl | rfl
    · exact ⟨_, Go.isCandid⟩
    · exact ⟨_, Json.isCandid⟩
  obtain ⟨hfresh, hcause⟩ := hcandid.isFresh_of_reached (isFresh_ofStream name input)
    (hasCause_ofStream name input) hs
  refine ⟨fun token t hnext => (hcandid.isCoherent_of_next hfresh hcause hnext).1, fun hshort => ?_⟩
  obtain ⟨p, hfits, hvisible⟩ := exists_dropsVisibly hx hshort
  obtain ⟨token, t, hnext, -⟩ := hfits.exists_next hfresh hvisible
  exact ⟨token, t, hnext, (hcandid.isCoherent_of_next hfresh hcause hnext).1⟩

/-- The first byte of a string is delivered, and then a read fails. -/
def openSample : ByteSource :=
  { reads := [.bytes [0x22], .failed "reset"] }

/-- The open string is illegal, and the token after it is the error. -/
theorem kinds_tell_diagnostics_openSample :
    ∃ s token t, Go.lexicon.Reached (ofStream "f" (.ofSource openSample)) s ∧
      Go.lexicon.next .off s = .ok (token, t) ∧ token.kind = Kind.error ∧ token.IsCoherent := by
  have hkinds : ((Go.lexicon.next .off (ofStream "f" (.ofSource openSample))).bind fun out =>
      (Go.lexicon.next .off out.2).map (·.1.kind)) = .ok Kind.error := rfl
  obtain ⟨⟨first, s⟩, hfirst, hkinds⟩ := exists_of_bind_eq_ok hkinds
  obtain ⟨⟨token, t⟩, hnext, hkind⟩ := exists_of_bind_eq_ok hkinds
  have hreached := Lexicon.Reached.start.next hfirst
  exact ⟨s, token, t, hreached, hnext, Except.ok.inj hkind,
    (kinds_tell_diagnostics (.inl rfl) "f" _ hreached .off).1 token t hnext⟩

end Language

end Lexing
