import Lexing.Proofs.Scanner.Assembly
import Lexing.Proofs.Scanner.Operation

/-!
# Revising a draft

Rewinding goes back to the beginning of the draft, wherever the rule that rewinds was tried. A rule
that is tried within a draft may therefore give back text that other rules have consumed, and go on
from there. `Scanner.Revises labels s t` says what is left of the relation between the scanner `s`
before such a rule and the scanner `t` after it: the draft begins at the same place, its literal
and the upcoming text make up the same text, and a kind that it was given is among `labels`.

Rewinding forgets how the text is divided between the literal and the upcoming text, so a revision
cannot be told from the scanner after rewinding.

## Main definitions

* `Scanner.IsPlaced`, `Scanner.IsBacked` : what holds of every draft.
* `Scanner.SharesDraft` : the drafts begin at the same place of the same text.
* `Scanner.rewindIf` : rewinding under a condition.
* `Scanner.Revises` : the draft was revised.

## Main results

* `Scanner.SharesDraft.restores_rewind` : rewinding makes up for a revision.
* `Scanner.Assembles.revises`, `Scanner.revises_apply` : assembling a token revises the draft.
* `Operation.isPlaced_perform` : operations keep the position in place.
-/

namespace Lexing

namespace Scanner

/-- The position is the beginning of the draft, moved over the literal. -/
def IsPlaced (s : Scanner) : Prop :=
  s.position = s.start.advanceAll s.draft.literal

/-- A draft that has consumed nothing has no value. -/
def IsBacked (s : Scanner) : Prop :=
  s.draft.literal = [] → s.draft.value = []

theorem IsFresh.isPlaced {s : Scanner} (h : s.IsFresh) : s.IsPlaced := by
  rw [IsPlaced, h.1, h.2]
  rfl

/-- An empty draft begins at the current position. -/
theorem IsPlaced.isFresh {s : Scanner} (h : s.IsPlaced) (hdraft : s.draft = {}) : s.IsFresh := by
  rw [IsPlaced, hdraft] at h
  exact ⟨hdraft, h.symm⟩

theorem isBacked_of_draft_eq {s : Scanner} (h : s.draft = {}) : s.IsBacked := by
  intro _
  rw [h, Draft.value_empty]

theorem Consumes.isPlaced {s t : Scanner} {w : List Char} (h : s.Consumes w t)
    (hs : s.IsPlaced) : t.IsPlaced := by
  rw [IsPlaced] at hs ⊢
  rw [h.position, hs, h.start, h.literal, Position.advanceAll_append]

/-- The drafts of `s` and `t` begin at the same place of the same text. -/
structure SharesDraft (s t : Scanner) : Prop where
  text : t.draft.literal ++ t.upcoming.chars = s.draft.literal ++ s.upcoming.chars
  start : t.start = s.start
  previousKind : t.previousKind = s.previousKind
  stalls : t.stalls = s.stalls
  isClean : s.IsClean → t.IsClean

/-- The draft of `s` was revised and has become that of `t`. Kinds were taken from `labels`. -/
structure Revises (labels : String → Prop) (s t : Scanner) : Prop extends SharesDraft s t where
  kind : t.draft.kind = s.draft.kind ∨ t.draft.kind = "" ∨ labels t.draft.kind ∨
    t.draft.kind = Kind.illegal
  isPlaced : s.IsPlaced → t.IsPlaced
  isBacked : s.IsBacked → t.IsBacked

variable {labels : String → Prop} {s t u : Scanner} {w : List Char} {m : Move}

/-! ### Shared drafts -/

theorem Consumes.sharesDraft (h : s.Consumes w t) : s.SharesDraft t where
  text := by rw [h.literal, h.upcoming, List.append_assoc]
  start := h.start
  previousKind := h.previousKind
  stalls := h.stalls
  isClean := h.isClean

namespace SharesDraft

theorem refl (s : Scanner) : s.SharesDraft s :=
  (Consumes.refl s).sharesDraft

theorem trans (h₁ : s.SharesDraft t) (h₂ : t.SharesDraft u) : s.SharesDraft u where
  text := h₂.text.trans h₁.text
  start := h₂.start.trans h₁.start
  previousKind := h₂.previousKind.trans h₁.previousKind
  stalls := h₂.stalls.trans h₁.stalls
  isClean := h₂.isClean ∘ h₁.isClean

theorem rewind (h : s.SharesDraft t) : s.SharesDraft t.rewind where
  text := by
    rw [upcoming_rewind, ← h.text]
    rfl
  start := h.start
  previousKind := h.previousKind
  stalls := h.stalls
  isClean hs := ⟨(h.isClean hs).1, t.ending_rewind.trans (h.isClean hs).2⟩

/-- A draft that is rewound is an empty one, whatever was done to it. -/
theorem revises_rewind (h : s.SharesDraft t) : s.Revises labels t.rewind :=
  { h.rewind with
    kind := .inr (.inl rfl)
    isPlaced := fun _ => rfl
    isBacked := fun _ => isBacked_of_draft_eq rfl }

/-- Rewinding leads to the same place from scanners that share a draft. -/
theorem restores_rewind (h : s.SharesDraft t) : s.rewind.Restores t.rewind where
  view := by
    have hupcoming : t.rewind.upcoming.chars = s.rewind.upcoming.chars := by
      rw [upcoming_rewind, upcoming_rewind, h.text]
    simp only [view, View.mk.injEq]
    exact ⟨hupcoming, h.start, h.start, rfl, h.previousKind, h.stalls⟩
  isClean hs := h.rewind.isClean ⟨hs.1, s.ending_rewind.symm.trans hs.2⟩

end SharesDraft

theorem Restores.sharesDraft (h : s.Restores t) : s.SharesDraft t :=
  (h.consumes (.refl t)).sharesDraft

/-- Rewinds, or leaves the scanner as it is. -/
def rewindIf (b : Bool) (s : Scanner) : Scanner :=
  if b then s.rewind else s

/-- Rewinding for the second time changes nothing. -/
theorem Restores.trans_rewindIf {b c : Bool} (h₁ : (s.rewindIf b).Restores t)
    (h₂ : (t.rewindIf c).Restores u) : (s.rewindIf (b || c)).Restores u := by
  have htwice : s.rewind.Restores s.rewind.rewind := (SharesDraft.refl s).rewind.restores_rewind
  rcases b with _ | _ <;> rcases c with _ | _
  · exact h₁.trans h₂
  · exact h₁.sharesDraft.restores_rewind.trans h₂
  · exact h₁.trans h₂
  · exact htwice.trans (h₁.sharesDraft.restores_rewind.trans h₂)

/-! ### Revisions -/

namespace Revises

theorem refl (s : Scanner) : s.Revises labels s :=
  { SharesDraft.refl s with kind := .inl rfl, isPlaced := id, isBacked := id }

theorem trans (h₁ : s.Revises labels t) (h₂ : t.Revises labels u) : s.Revises labels u :=
  { h₁.toSharesDraft.trans h₂.toSharesDraft with
    kind := by
      rcases h₂.kind with h | h
      · rw [h]
        exact h₁.kind
      · exact .inr h
    isPlaced := h₂.isPlaced ∘ h₁.isPlaced
    isBacked := h₂.isBacked ∘ h₁.isBacked }

theorem reject (h : s.Revises labels t) (problem : Problem) : s.Revises labels (t.reject problem) :=
  { h with kind := .inr (.inr (.inr rfl)) }

theorem setKind {kind : String} (h : s.Revises labels t) (hk : labels kind) :
    s.Revises labels (t.setKind kind) :=
  { h with kind := .inr (.inr (.inl hk)) }

theorem setKind? {kind : Option String} (h : s.Revises labels t) (hk : ∀ k ∈ kind, labels k) :
    s.Revises labels (t.setKind? kind) := by
  cases kind with
  | none => exact h
  | some k => exact h.setKind (hk k rfl)

end Revises

/-- Assembling a token revises the draft, provided that nothing is added to the value without
consuming text. -/
theorem Assembles.revises (h : Assembles labels s w t)
    (hw : w = [] → t.draft.value = s.draft.value) : s.Revises labels t :=
  { h.consumes.sharesDraft with
    kind := h.kind_eq.imp_right .inr
    isPlaced := h.consumes.isPlaced
    isBacked := by
      intro hs hliteral
      obtain ⟨hold, hnil⟩ := List.append_eq_nil_iff.mp (h.consumes.literal.symm.trans hliteral)
      rw [hw hnil, hs hold] }

theorem Assembles.revises_of_ne_nil (h : Assembles labels s w t) (hw : w ≠ []) :
    s.Revises labels t :=
  h.revises fun hnil => absurd hnil hw

theorem revises_apply (hm : m.IsForward) (s : Scanner) : s.Revises labels (m.apply s) := by
  have hmove : Assembles labels s ([] ++ s.current?.toList) (m.apply s) := .move .refl hm
  refine hmove.revises fun hnil => ?_
  rcases hm with rfl | rfl
  · exact (value_keep s).trans (by rw [show s.current?.toList = [] from hnil]; simp [Utf8.encode])
  · exact value_skip s

theorem revises_keep (s : Scanner) : s.Revises labels s.keep :=
  revises_apply (.inl rfl) s

theorem revises_skip (s : Scanner) : s.Revises labels s.skip :=
  revises_apply (.inr rfl) s

end Scanner

open Scanner

/-- Operations keep the position in place. -/
theorem Operation.isPlaced_perform {o : Operation} {s t : Scanner} {reply : Reply}
    (h : s.IsPlaced) (ho : o.perform s = .ok (reply, t)) : t.IsPlaced := by
  rcases o with m | c | b | kind | problem | _ | i
  · obtain ⟨-, rfl⟩ := Prod.mk.inj (Except.ok.inj ho)
    rcases m with _ | _ | _ | _
    · exact s.consumes_keep.isPlaced h
    · exact s.consumes_skip.isPlaced h
    · change s.discard.IsPlaced
      unfold Scanner.discard
      split <;> rfl
    · rfl
  · obtain ⟨-, rfl⟩ := Prod.mk.inj (Except.ok.inj ho)
    exact h
  · obtain ⟨-, rfl⟩ := Prod.mk.inj (Except.ok.inj ho)
    exact h
  · obtain ⟨-, rfl⟩ := Prod.mk.inj (Except.ok.inj ho)
    exact h
  · obtain ⟨-, rfl⟩ := Prod.mk.inj (Except.ok.inj ho)
    exact h
  · cases he : s.emit with
    | error f => simp [perform, he, Except.map] at ho
    | ok p =>
      simp only [perform, he, Except.map, Except.ok.injEq, Prod.mk.injEq] at ho
      obtain ⟨-, rfl⟩ := ho
      exact (frame_emit he).2.2.2.2.isPlaced
  · obtain ⟨-, rfl⟩ := Prod.mk.inj (Except.ok.inj ho)
    exact (s.consumes_peek i).isPlaced h

end Lexing
