import Lexing.Proofs.Rule.Outcome
import Lexing.Proofs.Scanner.Emission
import Lexing.Rule.Quotation

/-!
# What the rule for quoted texts matches

A quoted text is consumed within the draft, malformed or not. Each pass over its body consumes the
current code point at least, so that the bound on the passes is never reached, whatever the escapes
do.

## Main results

* `Quotation.assembles_recover` : recovery only consumes.
* `Quotation.exists_body` : the body ends.
* `Quotation.sound_scan` : quoted texts, given that the escapes are steady.
-/

namespace Lexing.Quotation

open Scanner

variable {labels : String → Prop} {q : Quotation} {m : Move} {escapes : Scanner → Outcome}
  {s : Scanner}

/-! ### Recovery -/

theorem assembles_passEscape (q : Quotation) (labels : String → Prop) (hm : m.IsForward)
    (s : Scanner) : ∃ w, Assembles labels s w (q.passEscape m s) := by
  have hflag : Assembles labels s _ (m.apply s) := .move .refl hm
  unfold passEscape
  dsimp only
  split
  · exact ⟨_, hflag⟩
  · exact ⟨_, hflag.move hm⟩

theorem assembles_recoverWithin (q : Quotation) (labels : String → Prop) (hm : m.IsForward)
    (bound : List Char) (s : Scanner) :
    ∃ w, Assembles labels s w (q.recoverWithin m bound s) := by
  fun_induction recoverWithin q m bound s with
  | case1 | case2 | case3 => exact ⟨_, Assembles.refl.reject _⟩
  | case4 => exact ⟨_, Assembles.refl.skip⟩
  | case5 _ bound s c _ _ _ _ ih =>
    obtain ⟨v, hv⟩ := q.assembles_passEscape labels hm s
    obtain ⟨w, hw⟩ := ih
    exact ⟨_, hv.trans hw⟩
  | case6 _ bound s c _ _ _ _ ih =>
    obtain ⟨w, hw⟩ := ih
    exact ⟨_, (Assembles.refl.move hm).trans hw⟩

/-- Recovery moves on within the draft. -/
theorem assembles_recover (q : Quotation) (labels : String → Prop) (hm : m.IsForward)
    (s : Scanner) : ∃ w, Assembles labels s w (q.recover m s) :=
  q.assembles_recoverWithin labels hm _ s

/-! ### Quoted texts -/

theorem exists_unescape (hescapes : ∀ s, Outcome.Steady labels s (escapes s)) (q : Quotation)
    (flag : Char) (s : Scanner) :
    ∃ w t, q.unescape escapes flag s = .ok t ∧ Assembles labels s w t := by
  unfold unescape
  split
  · exact ⟨_, _, rfl, Assembles.refl.keep⟩
  · obtain ⟨decoded, w, t, ht, hw⟩ := (hescapes s).exists_assembles
    rw [ht]
    cases decoded with
    | true => exact ⟨w, t, rfl, hw⟩
    | false => exact ⟨w, _, rfl, hw.reject _⟩

/-- The body of a quoted text ends before the bound on its passes is reached. -/
theorem exists_body (hescapes : ∀ s, Outcome.Steady labels s (escapes s)) (q : Quotation)
    (bound depth length : Nat) {s : Scanner} (hbound : s.upcoming.chars.length < bound) :
    ∃ w t, q.body escapes bound depth length s = .ok t ∧ Assembles labels s w t := by
  induction bound generalizing depth length s with
  | zero => omega
  | succ bound ih =>
    rw [body]
    split
    · exact ⟨_, _, rfl, Assembles.refl.reject _⟩
    · rename_i c hc
      have hup := congrArg List.length (upcoming_of_current? hc)
      split
      · exact ⟨_, _, rfl, Assembles.refl.skip⟩
      · split
        · exact ⟨_, _, rfl, Assembles.refl.reject _⟩
        · split
          · obtain ⟨w, hw⟩ := q.assembles_recover labels (.inr rfl)
              (s.reject (.tooManyCharacters (length + 1)))
            exact ⟨_, _, rfl, (Assembles.refl.reject _).trans hw⟩
          · split
            · obtain ⟨v, t, ht, hv⟩ := exists_unescape hescapes q c s.skip
              have hflag := (assembles_skip hc).trans hv
              rw [ht]
              change ∃ w u, (if s.draft.diagnostics.size < t.draft.diagnostics.size then
                Except.ok (q.recover .keep t) else q.body escapes bound depth (length + 1) t) =
                  .ok u ∧ Assembles labels s w u
              split
              · obtain ⟨w, hw⟩ := q.assembles_recover labels (.inl rfl) t
                exact ⟨_, _, rfl, hflag.trans hw⟩
              · have hlength := hflag.consumes.length_le
                obtain ⟨w, u, hu, hw⟩ := ih depth (length + 1) (s := t) (by simp at hlength; omega)
                exact ⟨_, u, hu, hflag.trans hw⟩
            · have hkept : Assembles labels s [c] s.keep := assembles_keep hc
              have hlength := hkept.consumes.length_le
              obtain ⟨w, u, hu, hw⟩ := ih (q.depthAfter depth c) (length + 1) (s := s.keep)
                (by simp at hlength; omega)
              exact ⟨_, u, hu, hkept.trans hw⟩

/-- A quoted text is not empty and has its kind, unless it is illegal. -/
theorem sound_scan (hkind : labels q.kind) (hescapes : ∀ s, Outcome.Steady labels s (escapes s))
    (s : Scanner) :
    Outcome.Sound (fun _ t => labels t.draft.kind ∨ t.draft.kind = Kind.illegal) s
      (q.scan escapes s) := by
  unfold scan
  split
  · rename_i hc
    have hopening : Assembles labels s [q.opening] (s.skip.setKind q.kind) :=
      (assembles_skip hc).setKind hkind
    have hbound := (s.skip.setKind q.kind).two_mul_length_lt_allowance
    obtain ⟨w, t, ht, hw⟩ := exists_body hescapes q (s := s.skip.setKind q.kind)
      ((s.skip.setKind q.kind).allowance + q.maxLength.getD 0 + 1) 0 0 (by omega)
    dsimp only
    rw [ht]
    refine .matched (List.cons_ne_nil q.opening w) (hopening.trans hw).consumes ?_
    rcases hw.kind_eq with h | h | h
    · exact .inl (h ▸ hkind)
    · exact .inl h
    · exact .inr h
  · exact .missed (.refl s)

end Lexing.Quotation
