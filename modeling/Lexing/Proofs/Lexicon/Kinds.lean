import Lexing.Proofs.Lexicon.Scan

/-!
# Kinds of tokens

The rules of a language give kinds from a finite list. A token then has one of these kinds, however
malformed its text is: what is not well formed is illegal, and that is one of the kinds.

## Main definitions

* `Scanner.HasKindIn` : the token to be emitted has a kind of a list.

## Main results

* `Rule.isSound_quotation_kind`, `Rule.isSound_number_kind`, `Rule.isSound_name_kind` : rules that
  give kinds.
* `Rule.isSound_word` : a literal is a kind of its own.
-/

namespace Lexing

open Scanner

/-- The token to be emitted has a kind of the list. -/
def Scanner.HasKindIn (kinds : List String) (t : Scanner) : Prop :=
  t.checkValue.assembled.kind ∈ kinds

/-- The list has the kind of illegal tokens but not the empty text, which is no kind. -/
structure IsKinds (kinds : List String) : Prop where
  illegal : Kind.illegal ∈ kinds
  empty : "" ∉ kinds

variable {kinds : List String} {flags : Flags} {t : Scanner}

theorem IsKinds.hasKindIn (hk : IsKinds kinds)
    (h : t.draft.kind ∈ kinds ∨ t.draft.kind = Kind.illegal) : t.HasKindIn kinds := by
  have hmem : t.draft.kind ∈ kinds := h.elim id fun h => h ▸ hk.illegal
  rcases kind_assembled (s := t) fun h => hk.empty (h ▸ hmem) with h | h
  · exact show _ ∈ kinds from h ▸ hmem
  · exact show _ ∈ kinds from h ▸ hk.illegal

theorem Token.kind_of_isBlank {token : Token} (h : token.isBlank = true) : token.kind = "" := by
  rw [Token.isBlank, Bool.and_eq_true, String.isEmpty_iff, String.isEmpty_iff] at h
  exact h.2

namespace Rule

/-- A quoted text has its kind or is illegal. -/
theorem isSound_quotation_kind (hk : IsKinds kinds) {q : Quotation} {escapes : List Rule}
    (hkind : q.kind ∈ kinds) (hescapes : ∀ r ∈ escapes, r.IsEscape) :
    (quotation q escapes).IsSound flags fun _ t => t.HasKindIn kinds := by
  have hsteady : ∀ r ∈ escapes, r.IsSteady flags (· ∈ kinds) := fun r hr => (hescapes r hr).isSteady
  exact (isSound_quotation hkind hsteady).mono fun _ _ => hk.hasKindIn

/-- A number has a kind of its rule or of its lead or suffix. -/
theorem isSound_number_kind (hk : IsKinds kinds) {f : Numeral} {lead : Option Rule}
    {suffixes : List Rule} (hf : f.Labels (· ∈ kinds))
    (hlead : ∀ r ∈ lead, r.IsSteady flags (· ∈ kinds))
    (hsuffixes : ∀ r ∈ suffixes, r.IsSteady flags (· ∈ kinds)) :
    (number f lead suffixes).IsSound flags fun _ t => t.HasKindIn kinds :=
  (isSound_number hf hlead hsuffixes).mono fun _ _ => hk.hasKindIn

/-- A name has the kind of names, or it is a keyword and a kind of its own. -/
theorem isSound_name_kind (hk : IsKinds kinds) {r : NameRule} (hkind : r.kind ∈ kinds)
    (hkeywords : ∀ k ∈ r.keywords, k ∈ kinds) :
    (name r).IsSound flags fun _ t => t.HasKindIn kinds := by
  refine (isSound_name r).mono fun _ t h => ?_
  rcases h with h | ⟨hempty, h⟩
  · exact hk.hasKindIn (.inl (h ▸ hkind))
  · rcases kind_assembled_of_kind_eq hempty with htoken | htoken
    · exact show _ ∈ kinds from htoken ▸ hkeywords _ h
    · exact show _ ∈ kinds from htoken ▸ hk.illegal

/-- A literal of a list of words is a kind of its own. -/
theorem isSound_word (words : List String) :
    (literal { words := .ofWords words }).IsSound flags fun w t =>
      String.ofList w ∈ words ∧ t.checkValue.assembled.kind = String.ofList w := by
  refine (isSound_literal _).mono fun w t h => ?_
  obtain ⟨hword, hvalue, hkind⟩ := h
  obtain ⟨word, hmem, rfl, -⟩ := WordTree.contains_ofWords.mp hword
  exact ⟨by simpa using hmem, kind_assembled_of_value_eq hkind hvalue⟩

end Rule

end Lexing
