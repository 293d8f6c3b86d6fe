import Lexing.Proofs.Scanner.Assembly
import Lexing.Proofs.WordTree
import Lexing.Rule.Words

/-!
# What rules for words match

An attempt that matches has consumed a word that is not empty. For a literal the word is one of the
rule, and the value and the kind of the draft are known exactly.

## Main results

* `SpanRule.assembles_attempt`, `NameRule.assembles_attempt` : runs and names.
* `NameRule.kind_attempt` : a name without the kind of names is a keyword.
* `LiteralRule.attempt_eq_some` : literals.
-/

namespace Lexing

open Scanner

variable {s t : Scanner}

/-! ### Runs -/

/-- A run is not empty. -/
theorem SpanRule.assembles_attempt {r : SpanRule} (h : r.attempt s = some t) :
    ∃ w, w ≠ [] ∧ Assembles (· ∈ r.kind) s w t := by
  unfold SpanRule.attempt at h
  split at h
  · cases h
  · rename_i hin
    obtain ⟨c, hc, hk⟩ := exists_of_isIn (by simpa using hin)
    refine ⟨s.upcoming.chars.takeWhile r.members.contains, ?_, ?_⟩
    · rw [upcoming_of_current? hc, List.takeWhile_cons_of_pos hk]
      exact List.cons_ne_nil _ _
    · split at h <;> cases h
      · exact assembles_whileIn (.inr rfl) ..
      · exact (assembles_whileIn (.inl rfl) ..).setKind? fun _ => id

/-! ### Names -/

namespace NameRule

variable {r : NameRule}

/-- A name is not empty. -/
theorem assembles_attempt (h : r.attempt s = some t) :
    ∃ w, w ≠ [] ∧ Assembles (· = r.kind) s w t := by
  unfold attempt at h
  split at h
  · cases h
  · rename_i hin
    obtain ⟨c, hc, -⟩ := exists_of_isIn (by simpa using hin)
    have hword : Assembles (· = r.kind) s _ (s.keep.whileIn r.tail .keep) :=
      (assembles_keep hc).trans (assembles_whileIn (.inl rfl) ..)
    cases h
    refine ⟨c :: s.keep.upcoming.chars.takeWhile r.tail.contains, List.cons_ne_nil c _, ?_⟩
    split
    · exact hword
    · exact hword.setKind rfl

/-- A name that was not given the kind of names is a keyword. -/
theorem kind_attempt (h : r.attempt s = some t) :
    t.draft.kind = r.kind ∨ t.draft.kind = s.draft.kind ∧ t.valueText ∈ r.keywords := by
  unfold attempt at h
  split at h
  · cases h
  · cases h
    split
    · rename_i hkeyword
      rw [isKeyword_eq, List.contains_iff_mem] at hkeyword
      have hkind : s.keep.draft.kind = s.draft.kind := kind_apply (.inl rfl) s
      exact .inr ⟨(kind_whileIn (.inl rfl) ..).trans hkind, hkeyword⟩
    · exact .inl rfl

end NameRule

/-! ### Literals -/

namespace LiteralRule

variable {r : LiteralRule}

/-- A literal is a word of the rule. It is the value unless it is skipped, and its kind is that of
the rule if there is one. -/
theorem attempt_eq_some (h : r.attempt s = some t) :
    ∃ w, r.words.contains w ∧ Assembles (· ∈ r.kind) s w t ∧
      t.draft.value = s.draft.value ++ (if r.skipped then [] else Utf8.encode w) ∧
        t.draft.kind = r.kind.getD s.draft.kind := by
  unfold attempt at h
  split at h
  · cases h
  · rename_i hn
    cases h
    have hm := Move.isForward_ite r.skipped
    refine ⟨s.upcoming.chars.take (r.longest s), WordTree.contains_take_longest hn,
      (assembles_times hm ..).setKind? fun _ => id, ?_, ?_⟩
    · rw [value_setKind?]
      cases r.skipped
      · exact value_times_keep ..
      · simpa using value_times_skip ..
    · rw [kind_setKind?, kind_times hm]

end LiteralRule

end Lexing
