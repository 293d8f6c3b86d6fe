import Lexing.Proofs.Rule.Basic
import Lexing.Proofs.Rule.Words
import Lexing.Proofs.WordArena

/-!
# Literals are matched as far as possible

A literal rule matches the longest of its literals that is upcoming, and consumes it and nothing
beyond. Neither the order of the literals nor how often they are listed matters. A walk over an
arena of nodes finds the same literal, and every index that it uses is that of a node.

## Main results

* `LiteralRule.exists_eval` : what a literal rule consumes.
* `LiteralRule.takes_longest_literal` : the longest literal is found and consumed.
-/

namespace Lexing.LiteralRule

open Scanner

variable {words : List String} {r : LiteralRule}

/-- The literals of a rule must not be empty. -/
theorem ofWords?_eq_ok (h : "" ∉ words) : ofWords? words = .ok { words := .ofWords words } := by
  refine if_neg ?_
  rw [List.any_eq_true]
  rintro ⟨word, hword, hempty⟩
  rw [String.isEmpty_iff] at hempty
  exact h (hempty ▸ hword)

/-- A literal rule matches if a literal is upcoming. It consumes the longest one and nothing
else. -/
theorem exists_eval (flags : Flags) (r : LiteralRule) (s : Scanner) :
    ∃ t, (Rule.literal r).eval flags s = .ok (decide (0 < r.longest s), t) ∧
      s.Consumes (s.upcoming.chars.take (r.longest s)) t ∧
      t.draft.value = s.draft.value ++
        (if r.skipped then [] else Utf8.encode (s.upcoming.chars.take (r.longest s))) ∧
      t.draft.kind = (if 0 < r.longest s then r.kind.getD s.draft.kind else s.draft.kind) := by
  rw [Rule.eval_literal, attempt]
  generalize r.longest s = n
  cases n with
  | zero => exact ⟨s, rfl, .refl s, by simp [Utf8.encode], rfl⟩
  | succ n =>
    have hm := Move.isForward_ite r.skipped
    have hword :
        Assembles (· ∈ r.kind) s _ (s.times (n + 1) (if r.skipped then .skip else .keep)) :=
      assembles_times hm ..
    refine ⟨_, rfl, (hword.setKind? fun _ => id).consumes, ?_, ?_⟩
    · rw [value_setKind?]
      cases r.skipped
      · exact value_times_keep ..
      · simpa using value_times_skip ..
    · rw [kind_setKind?, kind_times hm]
      rfl

/-- The length that a rule finds and what it does depend on the set of the literals only. -/
theorem longest_congr {words' : List String} (h : ∀ w, w ∈ words' ↔ w ∈ words) (text : List Char) :
    (WordTree.ofWords words').longest text = (WordTree.ofWords words).longest text :=
  (WordTree.isLongestMatch_ofWords words' text).unique
    ((WordTree.isLongestMatch_ofWords words text).of_mem_iff h)

theorem eval_congr {r' : LiteralRule} {s : Scanner} (flags : Flags)
    (hlongest : r'.longest s = r.longest s) (hskipped : r'.skipped = r.skipped)
    (hkind : r'.kind = r.kind) :
    (Rule.literal r').eval flags s = (Rule.literal r).eval flags s := by
  rw [Rule.eval_literal, Rule.eval_literal, attempt, attempt, hlongest, hskipped, hkind]

/-- Literals that are not empty make a rule, and also an arena of nodes. In every state of a scanner
the rule finds the greatest length of a literal that the upcoming text begins with, or 0 if there is
none. The walk over the arena finds the same length, all its indexes are those of nodes, and the
scanner then shows what it showed before. The rule matches if, and only if, the length is positive.
It consumes as many code points and nothing beyond, which are left out of the value if the rule
skips them. Any other list of the same literals makes a rule that does the same. -/
theorem takes_longest_literal (words : List String) (hwords : "" ∉ words) :
    ∃ r, ofWords? words = .ok r ∧ ∃ a, WordArena.ofWords? words = some a ∧
      ∀ (s : Scanner) (skipped : Bool) (kind : Option String) (flags : Flags) (n : Nat),
        { r with skipped, kind }.longest s = n →
        IsLongestMatch words s.upcoming.chars n ∧
        (∃ t, a.longest? s = some (n, t) ∧ s.Restores t) ∧
        (∃ t, (Rule.literal { r with skipped, kind }).eval flags s = .ok (decide (0 < n), t) ∧
          s.Consumes (s.upcoming.chars.take n) t ∧
          t.draft.value = s.draft.value ++
            (if skipped then [] else Utf8.encode (s.upcoming.chars.take n)) ∧
          t.draft.kind = (if 0 < n then kind.getD s.draft.kind else s.draft.kind)) ∧
        ∀ words', (∀ w, w ∈ words' ↔ w ∈ words) →
          ∃ r', ofWords? words' = .ok r' ∧ { r' with skipped, kind }.longest s = n ∧
            (Rule.literal { r' with skipped, kind }).eval flags s =
              (Rule.literal { r with skipped, kind }).eval flags s := by
  obtain ⟨a, ha⟩ : ∃ a, WordArena.ofWords? words = some a := by
    obtain ⟨a, texts, ha, -⟩ := WordArena.exists_ofWords? words
    exact ⟨a, ha⟩
  refine ⟨_, ofWords?_eq_ok hwords, a, ha, ?_⟩
  rintro s skipped kind flags n rfl
  refine ⟨WordTree.isLongestMatch_ofWords words _, ?_, exists_eval flags _ s, ?_⟩
  · obtain ⟨b, hb, hwalk⟩ := WordArena.exists_longest? words s
    obtain rfl := Option.some.inj (ha.symm.trans hb)
    exact hwalk
  · intro words' hsame
    have hlongest := longest_congr hsame s.upcoming.chars
    exact ⟨_, ofWords?_eq_ok fun hempty => hwords ((hsame "").mp hempty), hlongest,
      eval_congr flags hlongest rfl rfl⟩

/-- A source in which a longer literal is begun and not finished. -/
def equalsSample : ByteSource :=
  { reads := [.bytes [0x3D, 0x3D, 0x78]] }

/-- The shorter literal is taken where the longer one breaks off. -/
theorem takes_longest_literal_equalsSample :
    "" ∉ ["===", "=", "+", "="] ∧ ∃ r t, ofWords? ["===", "=", "+", "="] = .ok r ∧
      (Rule.literal r).eval .off (ofSource "f" equalsSample) = .ok (true, t) ∧
      (ofSource "f" equalsSample).Consumes ['='] t ∧
      IsLongestMatch ["===", "=", "+", "="] ['=', '=', 'x'] 1 := by
  refine ⟨by decide, ?_⟩
  obtain ⟨r, hr, a, -, hall⟩ := takes_longest_literal ["===", "=", "+", "="] (by decide)
  obtain rfl := Except.ok.inj ((ofWords?_eq_ok (by decide)).symm.trans hr)
  obtain ⟨hlongest, -, ⟨t, ht, hconsumes, -⟩, -⟩ :=
    hall (ofSource "f" equalsSample) false none .off 1 rfl
  exact ⟨_, t, hr, ht, hconsumes, hlongest⟩

end Lexing.LiteralRule
