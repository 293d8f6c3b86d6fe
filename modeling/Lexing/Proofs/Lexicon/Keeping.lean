import Lexing.Proofs.Lexicon.Pass
import Lexing.Proofs.Rule.Comment

/-!
# Kept and dropped comments

A comment is consumed in the same way whether it is kept or not. Keeping it adds its text to the
value of the draft and gives the draft a kind, and nothing else is different. So the scanner is the
same after the comment has become a token. If the comment is closed, the token is a comment when it
is kept and blank when it is not. If it is not closed, the tokens differ at most in their values.

## Main definitions

* `Scanner.unvalued` : the scanner without the value of its draft.
* `Token.Concurs` : the tokens differ at most in the text of a comment that is not closed.
* `Scanner.Retains` : the scanners after a comment that was kept, or was not.

## Main results

* `CommentRule.unvalued_body` : a comment is consumed in the same way, kept or not.
* `CommentRule.attempt_of_kept` : a comment is matched in the same way, kept or not.
-/

namespace Lexing

/-! ### Tokens that differ in the text of a comment -/

/-- The tokens agree in kind, literal, position and diagnostics. They agree in their values as well,
unless a comment that is not closed was reported. -/
structure Token.Concurs (t u : Token) : Prop where
  kind : t.kind = u.kind
  literal : t.literal = u.literal
  position : t.position = u.position
  diagnostics : t.diagnostics = u.diagnostics
  value : t.value = u.value ∨ ∃ d ∈ t.diagnostics, d.problem = .unterminatedComment

namespace Token.Concurs

variable {t u v : Token}

theorem refl (t : Token) : t.Concurs t :=
  ⟨rfl, rfl, rfl, rfl, .inl rfl⟩

theorem symm (h : t.Concurs u) : u.Concurs t :=
  ⟨h.kind.symm, h.literal.symm, h.position.symm, h.diagnostics.symm,
    h.value.imp Eq.symm fun hd => h.diagnostics ▸ hd⟩

theorem trans (h₁ : t.Concurs u) (h₂ : u.Concurs v) : t.Concurs v where
  kind := h₁.kind.trans h₂.kind
  literal := h₁.literal.trans h₂.literal
  position := h₁.position.trans h₂.position
  diagnostics := h₁.diagnostics.trans h₂.diagnostics
  value := by
    rcases h₁.value with hvalue | hd
    · exact h₂.value.imp hvalue.trans fun hd => h₁.diagnostics ▸ hd
    · exact .inr hd

end Token.Concurs

/-! ### Scanners without values -/

namespace Scanner

variable (s : Scanner)

/-- The scanner without the value of its draft. -/
def unvalued : Scanner :=
  { s with draft := { s.draft with latestBytes := [] } }

theorem unvalued_advance (c : Char) : (s.advance c).unvalued = s.unvalued.advance c := by
  simp only [advance, unvalued]
  cases s.window.shift.2 <;> rfl

theorem unvalued_keep : s.keep.unvalued = s.unvalued.skip := by
  rw [keep, skip, show s.unvalued.current? = s.current? from rfl]
  cases s.current? with
  | none => rfl
  | some c => exact unvalued_advance _ c

theorem unvalued_skip : s.skip.unvalued = s.unvalued.skip := by
  rw [skip, skip, show s.unvalued.current? = s.current? from rfl]
  cases s.current? with
  | none => rfl
  | some c => exact unvalued_advance _ c

theorem unvalued_times_skip (n : Nat) : (s.times n .skip).unvalued = s.unvalued.times n .skip := by
  induction n generalizing s with
  | zero => rfl
  | succ n ih => exact (ih s.skip).trans (congrArg (times n .skip) s.unvalued_skip)

theorem unvalued_of_value_eq {s : Scanner} (h : s.draft.value = []) : s.unvalued = s := by
  have hbytes : s.draft.latestBytes = [] := List.reverse_eq_nil_iff.mp h
  rw [unvalued, ← hbytes]

theorem renew_unvalued : s.unvalued.renew = s.renew := by
  rw [renew_eq, renew_eq]
  rfl

/-- The scanners will go on in the same way. The first is about to emit a comment of the given kind
where the second is about to emit a blank token, or both are about to emit illegal tokens which
differ at most in the text of a comment that is not closed. -/
def Retains (kind : String) (t u : Scanner) : Prop :=
  t.renew = u.renew ∧
    ((t.checkValue.assembled.kind = kind ∧ u.checkValue.assembled.isBlank = true) ∨
      (t.checkValue.assembled.kind = Kind.illegal ∧
        t.checkValue.assembled.Concurs u.checkValue.assembled))

end Scanner

namespace CommentRule

open Scanner

variable {r : CommentRule} {flags flags' : Flags} {s t : Scanner}

/-- The text of a comment is consumed in the same way, kept or not. -/
theorem unvalued_body (kept : Bool) (bound : List Char) (s : Scanner) :
    (r.body kept bound s).unvalued = r.body false bound s.unvalued := by
  induction bound generalizing s with
  | nil =>
    rw [body, body]
    split <;> rfl
  | cons _ bound ih =>
    rw [body, body, show s.unvalued.upcoming = s.upcoming from rfl]
    split
    · rw [ih, if_neg Bool.false_ne_true]
      cases kept with
      | true => exact congrArg (r.body false bound) s.unvalued_keep
      | false => exact congrArg (r.body false bound) s.unvalued_skip
    · split
      · exact s.unvalued_times_skip _
      · rfl

theorem exists_value_times_move (kept : Bool) (n : Nat) (s : Scanner) :
    ∃ v, (s.times n (move kept)).draft.value = s.draft.value ++ Utf8.encode v := by
  cases kept with
  | true => exact ⟨_, value_times_keep n s⟩
  | false => exact ⟨[], by simpa [move, Utf8.encode] using value_times_skip n s⟩

/-- The text of a comment is added to the value as it is. -/
theorem exists_value_body (kept : Bool) (s : Scanner) :
    ∃ v, (r.body kept s.upcoming.chars s).draft.value = s.draft.value ++ Utf8.encode v := by
  obtain ⟨v, rest, -, -, hend⟩ := body_cases (r := r) kept (s := s) rfl
  obtain ⟨v', hvalue⟩ := exists_value_times_move kept v.length s
  refine ⟨v', ?_⟩
  rcases hend with ⟨-, hbody⟩ | ⟨-, hbody⟩ <;> rw [hbody] <;> split
  · exact hvalue
  · exact hvalue
  · rw [value_times_skip, hvalue]
  · exact hvalue

/-- A comment that makes the draft illegal is not closed. -/
theorem unterminated_of_body (hs : s.draft.kind ≠ Kind.illegal)
    (h : (r.body false s.upcoming.chars s).draft.kind = Kind.illegal) :
    ∃ d ∈ (r.body false s.upcoming.chars s).draft.diagnostics,
      d.problem = .unterminatedComment := by
  have hskip : (Move.skip).IsForward := .inr rfl
  obtain ⟨v, rest, -, -, hend⟩ := body_cases (r := r) false (s := s) rfl
  rw [show move false = .skip from rfl] at hend
  rcases hend with ⟨-, hbody⟩ | ⟨-, hbody⟩ <;> rw [hbody] at h ⊢ <;> split at h
  · rename_i hinclusive
    rw [if_pos hinclusive]
    exact ⟨_, Array.mem_push_self, rfl⟩
  · exact absurd ((kind_times hskip ..).symm.trans h) hs
  · rw [kind_times hskip, kind_times hskip] at h
    exact absurd h hs
  · exact absurd ((kind_times hskip ..).symm.trans h) hs

theorem label_false (s : Scanner) : r.label false s = s :=
  if_neg Bool.false_ne_true

theorem renew_label (kept : Bool) (s : Scanner) : (r.label kept s).renew = s.renew := by
  rw [label]
  split
  · rw [renew_eq, renew_eq]
    rfl
  · rfl

/-- Where a kept comment is matched, the same comment is matched if it is not kept. -/
theorem attempt_of_kept (hskipped : r.opening.skipped) (hopening : r.opening.kind = none)
    (hkind : r.kind ≠ "") (hs : s.IsFresh) (hkept : r.keepFlag.any flags = true)
    (hdropped : r.keepFlag.any flags' = false) (h : r.attempt flags s = some t) :
    ∃ u, r.attempt flags' s = some u ∧ t.Retains r.kind u := by
  obtain ⟨b, hb, ht⟩ := attempt_eq_some h
  obtain ⟨_, -, -, hvalue, hlabel⟩ := LiteralRule.attempt_eq_some hb
  simp only [hs.1, hskipped, hopening, ↓reduceIte, List.append_nil, Option.getD_none,
    Draft.value_empty] at hvalue hlabel
  obtain ⟨v, htext⟩ := exists_value_body (r := r) true b
  have hbody : (r.body true b.upcoming.chars b).unvalued = r.body false b.upcoming.chars b := by
    rw [unvalued_body, unvalued_of_value_eq hvalue]
  rw [hvalue, List.nil_append] at htext
  rw [hkept] at ht
  -- From here on only the text of the comment matters, kept in `k` and not kept in `d`.
  generalize r.body true b.upcoming.chars b = k at ht htext hbody
  generalize hd : r.body false b.upcoming.chars b = d at hbody
  have hdropped : r.attempt flags' s = some d := by
    rw [attempt, hb, Option.map_some, hdropped, label_false, hd]
  have hdkind : k.draft.kind = d.draft.kind := congrArg (·.draft.kind) hbody
  refine ⟨d, hdropped, by rw [ht, renew_label, ← hbody, renew_unvalued], ?_⟩
  rcases body_of_not_kept hd with hillegal | ⟨hblank, hempty, -⟩
  · obtain ⟨report, hreport, hproblem⟩ := unterminated_of_body (r := r) (s := b)
      (hlabel ▸ by decide) (hd ▸ hillegal)
    rw [hd] at hreport
    subst hbody
    obtain rfl : t = k := by rw [ht, label, hdkind, hillegal, if_neg (by decide)]
    rw [checkValue_of_value_eq htext, checkValue_of_value_eq_nil (s := t.unvalued) rfl]
    have hne : t.unvalued.draft.kind ≠ "" := hillegal ▸ by decide
    have htoken' := (kind_assembled_of_kind_ne hne).trans hillegal
    have htoken : t.assembled.kind = Kind.illegal :=
      (kind_assembled_of_kind_ne (s := t) hne).trans hillegal
    exact .inr ⟨htoken, htoken.trans htoken'.symm, rfl, rfl, rfl,
      .inr ⟨report, Array.mem_toList_iff.mpr hreport, hproblem⟩⟩
  · rw [hlabel] at hempty
    refine .inl ⟨?_, isBlank_assembled.mpr ⟨hblank.trans hvalue, hempty⟩⟩
    obtain rfl : t = k.setKind r.kind := by
      rw [ht, label, hdkind, hempty, Bool.true_and, if_pos (by decide)]
    rw [checkValue_of_value_eq (s := k.setKind r.kind) htext]
    exact kind_assembled_of_kind_ne (s := k.setKind r.kind) hkind

end CommentRule

end Lexing
