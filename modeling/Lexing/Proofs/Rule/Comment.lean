import Lexing.Proofs.Rule.Words
import Lexing.Rule.Comment

/-!
# What rules for comments match

A comment goes on to the first place where a closing literal stands, or to the end of the text.

## Main results

* `CommentRule.body_cases` : how a comment ends.
* `CommentRule.assembles_attempt` : a comment is consumed within the draft.
* `CommentRule.attempt_of_not_kept` : a dropped comment leaves value and kind empty, unless it is
  not closed.
-/

namespace Lexing.CommentRule

open Scanner

variable {r : CommentRule} {flags : Flags} {s t : Scanner}

/-- The move with which the text of a comment is consumed. -/
def move (kept : Bool) : Move :=
  if kept then .keep else .skip

theorem isForward_move (kept : Bool) : (move kept).IsForward := by
  cases kept
  · exact .inr rfl
  · exact .inl rfl

/-- No word of a tree stands in the text `v ++ rest` before the end of `v`. -/
def Lacks (words : WordTree) (v rest : List Char) : Prop :=
  ∀ k < v.length, words.longest ((v ++ rest).drop k) = 0

/-- A comment moves over a text without closing literals. It ends before or after the first closing
literal, or at the end of the text. -/
theorem body_cases (kept : Bool) {bound : List Char} (hbound : s.upcoming.chars = bound) :
    ∃ v rest, s.upcoming.chars = v ++ rest ∧ Lacks r.closing v rest ∧
      (rest = [] ∧ r.body kept bound s =
          (if r.inclusive then (times v.length (move kept) s).reject .unterminatedComment
           else times v.length (move kept) s) ∨
        r.closing.longest rest ≠ 0 ∧ r.body kept bound s =
          if r.inclusive then (times v.length (move kept) s).times (r.closing.longest rest) .skip
          else times v.length (move kept) s) := by
  induction bound generalizing s with
  | nil => exact ⟨[], [], hbound, by simp [Lacks], .inl ⟨rfl, rfl⟩⟩
  | cons c cs ih =>
    rw [body, hbound]
    split
    · rename_i hnone
      have hnext : (if kept then s.keep else s.skip) = (move kept).apply s := by
        cases kept <;> rfl
      have hup : ((move kept).apply s).upcoming.chars = cs := by
        rw [upcoming_apply (isForward_move kept), hbound, List.tail_cons]
      obtain ⟨v, rest, htext, hlacks, hend⟩ := ih hup
      rw [hup] at htext
      refine ⟨c :: v, rest, by rw [htext, List.cons_append], ?_, by rwa [hnext]⟩
      intro k hk
      cases k with
      | zero => rwa [List.drop_zero, List.cons_append, ← htext]
      | succ k => exact hlacks k (by simpa using hk)
    · rename_i hsome
      exact ⟨[], c :: cs, rfl, by simp [Lacks], .inr ⟨hsome, rfl⟩⟩

theorem assembles_body (labels : String → Prop) (kept : Bool) (s : Scanner) :
    ∃ w, Assembles labels s w (r.body kept s.upcoming.chars s) := by
  obtain ⟨v, rest, -, -, hend⟩ := body_cases (r := r) kept (s := s) rfl
  have htext : Assembles labels s _ (times v.length (move kept) s) :=
    assembles_times (isForward_move kept) ..
  rcases hend with ⟨-, hbody⟩ | ⟨-, hbody⟩ <;> rw [hbody] <;> split
  · exact ⟨_, htext.reject _⟩
  · exact ⟨_, htext⟩
  · exact ⟨_, htext.trans (assembles_times (.inr rfl) ..)⟩
  · exact ⟨_, htext⟩

theorem attempt_eq_some (h : r.attempt flags s = some t) :
    ∃ u, r.opening.attempt s = some u ∧
      t = r.label (r.keepFlag.any flags) (r.body (r.keepFlag.any flags) u.upcoming.chars u) := by
  obtain ⟨u, hu, ht⟩ := Option.map_eq_some_iff.mp h
  exact ⟨u, hu, ht.symm⟩

/-- A comment is not empty. -/
theorem assembles_attempt (h : r.attempt flags s = some t) :
    ∃ w, w ≠ [] ∧ Assembles (fun kind => kind ∈ r.opening.kind ∨ kind = r.kind) s w t := by
  obtain ⟨u, hu, rfl⟩ := attempt_eq_some h
  obtain ⟨b, hword, hopening, -⟩ := LiteralRule.attempt_eq_some hu
  obtain ⟨w, hbody⟩ := assembles_body (r := r) (fun kind => kind ∈ r.opening.kind ∨ kind = r.kind)
    (r.keepFlag.any flags) u
  have hall := (hopening.mono fun _ => Or.inl).trans hbody
  refine ⟨b ++ w, List.append_ne_nil_of_left_ne_nil (WordTree.ne_nil_of_contains hword) w, ?_⟩
  unfold label
  split
  · exact hall.setKind (.inr rfl)
  · exact hall

/-- A kept comment has a kind. -/
theorem kind_attempt_of_kept (hkept : r.keepFlag.any flags = true) (hkind : r.kind ≠ "")
    (h : r.attempt flags s = some t) : t.draft.kind ≠ "" := by
  obtain ⟨u, -, rfl⟩ := attempt_eq_some h
  rw [hkept, label, Bool.true_and]
  split
  · exact hkind
  · rename_i hne
    simpa using hne

/-! ### Dropped comments -/

/-- How a comment ends after a text without closing literals: with a closing literal `e`, or before
one or the end of the text if closing literals do not belong to the comment. -/
def Closes (r : CommentRule) (e rest : List Char) : Prop :=
  (r.inclusive = true ∧ r.closing.contains e) ∨
    (r.inclusive = false ∧ e = [] ∧ (rest = [] ∨ r.closing.longest rest ≠ 0))

/-- The text of a comment that is not kept changes neither value nor kind, unless the comment is not
closed. -/
theorem body_of_not_kept (h : r.body false s.upcoming.chars s = t) :
    t.draft.kind = Kind.illegal ∨
      t.draft.value = s.draft.value ∧ t.draft.kind = s.draft.kind ∧ ∃ v e,
        s.upcoming.chars = v ++ e ++ t.upcoming.chars ∧
          Lacks r.closing v (e ++ t.upcoming.chars) ∧ r.Closes e t.upcoming.chars := by
  obtain ⟨v, rest, htext, hlacks, hend⟩ := body_cases (r := r) false (s := s) rfl
  rw [show move false = .skip from rfl, h] at hend
  have hskip : (Move.skip).IsForward := .inr rfl
  have hrest : (times v.length .skip s).upcoming.chars = rest := by
    rw [upcoming_times hskip, htext, List.drop_left]
  -- The cases differ in what is consumed after the text without closing literals.
  rcases hend with ⟨hnil, rfl⟩ | ⟨hclosing, rfl⟩ <;> by_cases hinclusive : r.inclusive
  · rw [if_pos hinclusive]
    exact .inl rfl
  · rw [if_neg hinclusive, hrest]
    refine .inr ⟨value_times_skip .., kind_times hskip .., v, [], ?_, hlacks, ?_⟩
    · rw [List.append_nil, htext]
    · exact .inr ⟨Bool.eq_false_iff.mpr hinclusive, rfl, .inl hnil⟩
  · rw [if_pos hinclusive, upcoming_times hskip, hrest]
    refine .inr ⟨?_, ?_, v, rest.take (r.closing.longest rest), ?_, ?_, ?_⟩
    · rw [value_times_skip, value_times_skip]
    · rw [kind_times hskip, kind_times hskip]
    · rw [List.append_assoc, List.take_append_drop, htext]
    · rwa [List.take_append_drop]
    · exact .inl ⟨hinclusive, WordTree.contains_take_longest hclosing⟩
  · rw [if_neg hinclusive, hrest]
    refine .inr ⟨value_times_skip .., kind_times hskip .., v, [], ?_, hlacks, ?_⟩
    · rw [List.append_nil, htext]
    · exact .inr ⟨Bool.eq_false_iff.mpr hinclusive, rfl, .inr hclosing⟩

/-- A comment at the beginning of a token that is not kept leaves value and kind empty, unless it is
not closed. -/
theorem attempt_of_not_kept {w : List Char} (hkept : r.keepFlag.any flags = false)
    (hskipped : r.opening.skipped) (hkind : r.opening.kind = none) (hs : s.IsFresh)
    (hw : s.Consumes w t) (h : r.attempt flags s = some t) :
    t.draft.kind = Kind.illegal ∨
      t.draft.value = [] ∧ t.draft.kind = "" ∧ ∃ b v e, w = b ++ v ++ e ∧
        r.opening.words.contains b ∧ Lacks r.closing v (e ++ t.upcoming.chars) ∧
          r.Closes e t.upcoming.chars := by
  obtain ⟨u, hu, ht⟩ := attempt_eq_some h
  obtain ⟨b, hword, hopening, hvalue, hkind₀⟩ := LiteralRule.attempt_eq_some hu
  simp only [hs.1, hskipped, hkind, ↓reduceIte, List.append_nil, Option.getD_none] at hvalue hkind₀
  rw [hkept, label, Bool.false_and, if_neg Bool.false_ne_true] at ht
  refine (body_of_not_kept ht.symm).imp_right ?_
  rintro ⟨htvalue, htkind, v, e, htext, hlacks, hcloses⟩
  refine ⟨htvalue.trans hvalue, htkind.trans hkind₀, b, v, e, ?_, hword, hlacks, hcloses⟩
  have hall : w ++ t.upcoming.chars = b ++ v ++ e ++ t.upcoming.chars := by
    rw [← hw.upcoming, hopening.consumes.upcoming, htext]
    simp only [List.append_assoc]
  exact List.append_cancel_right hall

end Lexing.CommentRule
