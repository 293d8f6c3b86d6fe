import Lexing.Proofs.Rule.Basic
import Lexing.Proofs.Rule.Report
import Lexing.Proofs.Scanner.Replay
import Mathlib.Tactic.MkIffOfInductiveProp

/-!
# Rules that replay

A rule is faithful if it does the same in a replay, as long as it does not go beyond the text that is
replayed and has nothing to report. Words without blanks, names, escapes and quoted texts are
faithful, whatever was consumed before them.

At the beginning of a token less is needed: a rule that makes the token has consumed all of the text,
and a rule before it must not match in the replay. A comment that is dropped makes no token, so that
nothing is asked of it but that its opening is not found where it was not before.

## Main definitions

* `Scanner.IsFaithful` : a way to try rules that does the same in a replay.
* `Rule.Replays` : a rule that makes the same token in a replay.

## Main results

* `Rule.isFaithful_literal`, `Rule.isFaithful_name`, `Rule.isFaithful_charEscape`,
  `Rule.isFaithful_hexEscape`, `Rule.isFaithful_octalEscape`, `Rule.isFaithful_quotation`.
* `Rule.isFaithful_evalFirst` : rules in order.
* `Rule.replays_literal`, `Rule.replays_name`, `Rule.replays_quotation`, `Rule.replays_comment`.
* `Rule.replays_evalFirst` : the first rule that matches.
-/

namespace Lexing

open Scanner

/-- What is tried on a scan that does not go beyond the common text and reports nothing has the same
outcome in a replay. -/
def Scanner.IsFaithful (attempt : Scanner → Outcome) : Prop :=
  ∀ ⦃v w rest rest' s t u found⦄, IsParted rest' → s.Shadows v rest rest' t →
    attempt s = .ok (found, u) → u.draft.diagnostics = #[] → u.upcoming.chars = w ++ rest →
    ∃ u', attempt t = .ok (found, u') ∧ u.Shadows w rest rest' u'

variable {v w rest rest' : List Char} {s t u : Scanner} {flags : Flags}

/-- Leaving the scanner as it is is faithful. -/
theorem Scanner.isFaithful_ok (found : Bool) : IsFaithful fun s => .ok (found, s) := by
  intro v w rest rest' s t u _ _ h htry _ hstay
  obtain ⟨rfl, rfl⟩ := Prod.mk.inj (Except.ok.inj htry)
  rw [h.upcoming] at hstay
  obtain rfl := List.append_cancel_right hstay
  exact ⟨t, rfl, h⟩

/-- An attempt is faithful if it fails in the replay where it fails in the scan, and makes the same of
what it matches. -/
theorem Scanner.isFaithful_settle {attempt : Scanner → Option Scanner}
    (hmiss : ∀ ⦃v rest rest' s t⦄, IsParted rest' → s.Shadows v rest rest' t → attempt s = none →
      attempt t = none)
    (hmatch : ∀ ⦃v w rest rest' s t u⦄, IsParted rest' → s.Shadows v rest rest' t →
      attempt s = some u → u.draft.diagnostics = #[] → u.upcoming.chars = w ++ rest →
      ∃ u', attempt t = some u' ∧ u.Shadows w rest rest' u') :
    IsFaithful fun s => Outcome.settle s (attempt s) := by
  intro v w rest rest' s t u found hrest h htry hclean hstay
  dsimp only at htry ⊢
  cases hattempt : attempt s with
  | none =>
    rw [hattempt] at htry
    rw [hmiss hrest h hattempt]
    exact isFaithful_ok false hrest h htry hclean hstay
  | some u₀ =>
    rw [hattempt] at htry
    obtain ⟨rfl, rfl⟩ := Prod.mk.inj (Except.ok.inj htry)
    obtain ⟨u', hu', hshadows⟩ := hmatch hrest h hattempt hclean hstay
    exact ⟨u', by rw [hu']; rfl, hshadows⟩

/-! ### Words -/

/-- Words without blanks are found in the replay if they are not longer than the common text. -/
theorem LiteralRule.longest_eq_of_shadows {l : LiteralRule}
    (hwords : ∀ w, l.words.contains w → ' ' ∉ w) (hrest : IsParted rest')
    (h : s.Shadows v rest rest' t) (hle : l.longest s ≤ v.length) : l.longest t = l.longest s := by
  rw [longest, h.upcoming] at hle
  rw [longest, longest, h.upcoming, h.replayed, WordTree.longest_append hwords hrest,
    WordTree.longest_append_of_le hle]

namespace Rule

theorem isFaithful_literal {l : LiteralRule} (hwords : ∀ w, l.words.contains w → ' ' ∉ w) :
    IsFaithful ((literal l).eval flags) := by
  refine isFaithful_settle ?_ ?_
  · intro v rest rest' s t hrest h hattempt
    have hnone : l.longest s = 0 := by
      rw [LiteralRule.attempt] at hattempt
      split at hattempt
      · assumption
      · exact absurd hattempt (Option.some_ne_none _)
    rw [LiteralRule.attempt, l.longest_eq_of_shadows hwords hrest h (by omega), hnone]
    rfl
  · intro v w rest rest' s t u hrest h hattempt _ hstay
    rw [LiteralRule.attempt] at hattempt
    split at hattempt
    · exact absurd hattempt.symm (Option.some_ne_none u)
    · rename_i hsome
      obtain rfl := Option.some.inj hattempt
      have hup (s : Scanner) : (s.setKind? l.kind).upcoming.chars = s.upcoming.chars := by
        cases l.kind <;> rfl
      rw [hup] at hstay
      obtain ⟨hle, htimes⟩ :=
        h.times (Move.isForward_ite l.skipped) (l.words.longest_le_length _) hstay
      rw [LiteralRule.attempt, l.longest_eq_of_shadows hwords hrest h hle]
      split
      · exact absurd ‹_› hsome
      · exact ⟨_, rfl, htimes.setKind? l.kind⟩

theorem isFaithful_name {n : NameRule} (hhead : n.head.contains ' ' = false)
    (htail : n.tail.contains ' ' = false) : IsFaithful ((name n).eval flags) := by
  refine isFaithful_settle ?_ ?_
  · intro v rest rest' s t hrest h hattempt
    rw [NameRule.attempt] at hattempt ⊢
    by_cases hin : s.isIn n.head = true
    · simp [hin] at hattempt
    · have hout : t.isIn n.head = false :=
        Bool.eq_false_iff.mpr fun ht => hin (h.isIn_imp hrest hhead ht)
      rw [hout]
      rfl
  · intro v w rest rest' s t u hrest h hattempt _ hstay
    obtain ⟨x, hne, hx⟩ := n.assembles_attempt hattempt
    have hv : v ≠ [] := by
      rw [h.eq_append hx.consumes hstay]
      exact List.append_ne_nil_of_left_ne_nil hne w
    obtain ⟨c, v, rfl⟩ := List.exists_cons_of_ne_nil hv
    rw [NameRule.attempt] at hattempt ⊢
    rw [h.isIn_eq hrest hhead fun _ => hv]
    split at hattempt
    · exact absurd hattempt.symm (Option.some_ne_none u)
    · rename_i hin
      obtain rfl := Option.some.inj hattempt
      rw [if_neg hin]
      have hword (s : Scanner) : (if n.isKeyword s then s else s.setKind n.kind).upcoming.chars =
          s.upcoming.chars := by
        split <;> rfl
      rw [hword] at hstay
      have hwhile := h.keep.whileIn hrest htail (.inl rfl) hstay
      have hkeyword : n.isKeyword (t.keep.whileIn n.tail .keep) =
          n.isKeyword (s.keep.whileIn n.tail .keep) := by
        rw [NameRule.isKeyword_eq, NameRule.isKeyword_eq, valueText, valueText, hwhile.draft]
      refine ⟨_, rfl, ?_⟩
      rw [hkeyword]
      split
      · exact hwhile
      · exact hwhile.setKind n.kind

/-! ### Escapes -/

theorem isFaithful_charEscape {e : CharEscape} (he : e.lookup? ' ' = none) :
    IsFaithful ((charEscape e).eval flags) := by
  refine isFaithful_settle ?_ ?_
  · intro v rest rest' s t hrest h hattempt
    rw [CharEscape.attempt, Option.map_eq_none_iff] at hattempt ⊢
    cases v with
    | nil =>
      rcases h.current?_of_nil hrest with ht | ht
      · rw [ht, Option.bind_none]
      · rw [ht, Option.bind_some, he]
    | cons c v => rwa [h.current?_replayed, ← h.current?_eq]
  · intro v w rest rest' s t u hrest h hattempt _ hstay
    obtain ⟨d, hd, rfl⟩ := Option.map_eq_some_iff.mp hattempt
    obtain ⟨c, hc, hlookup⟩ := Option.bind_eq_some_iff.mp hd
    obtain rfl := (h.pushChar d).eq_cons (.inr rfl) hc (.refl _) hstay
    refine ⟨(t.pushChar d).skip, ?_, (h.pushChar d).skip⟩
    rw [CharEscape.attempt, h.current?_replayed, Option.bind_some, hlookup]
    rfl

end Rule

/-- Digits that are in the common text are upcoming in the replay. -/
theorem Scanner.Shadows.upcomingDigits_eq (h : s.Shadows v rest rest' t) {n : Nat}
    (hn : n ≤ v.length) (k : CharClass) : t.upcomingDigits n k = s.upcomingDigits n k := by
  rw [upcomingDigits, upcomingDigits, h.upcoming, h.replayed, List.take_append_of_le_length hn,
    List.take_append_of_le_length hn]

/-- Digits that are upcoming are in the text. -/
theorem Scanner.le_length_of_upcomingDigits {n : Nat} {k : CharClass}
    (h : (s.upcomingDigits n k).length = n) : n ≤ s.upcoming.chars.length := by
  have hdigits := (List.takeWhile_prefix k.contains (l := s.upcoming.chars.take n)).length_le
  rw [← upcomingDigits, h, List.length_take] at hdigits
  omega

/-- Digits that are not reported are consumed. -/
theorem HexEscape.decodeDigits_of_clean {e : HexEscape}
    (h : (e.decodeDigits s).draft.diagnostics = #[]) :
    (s.upcomingDigits e.width .hexDigit).length = e.width ∧
      (e.decodeDigits s).upcoming.chars = (s.times e.width .skip).upcoming.chars := by
  rw [decodeDigits] at h ⊢
  split at h
  · exact absurd h Array.push_ne_empty
  · rename_i hwidth
    rw [if_neg hwidth]
    refine ⟨not_not.mp hwidth, ?_⟩
    split
    · rfl
    · rename_i hbyte
      rw [if_neg hbyte] at h
      split
      · rfl
      · rename_i hnone
        rw [hnone] at h
        exact absurd h Array.push_ne_empty

theorem HexEscape.shadows_decodeDigits {e : HexEscape} (h : s.Shadows v rest rest' t)
    (hclean : (e.decodeDigits s).draft.diagnostics = #[])
    (hstay : (e.decodeDigits s).upcoming.chars = w ++ rest) :
    (e.decodeDigits s).Shadows w rest rest' (e.decodeDigits t) := by
  obtain ⟨hwidth, hup⟩ := decodeDigits_of_clean hclean
  obtain ⟨hle, htimes⟩ := h.times (.inr rfl) (le_length_of_upcomingDigits hwidth) (hup ▸ hstay)
  rw [decodeDigits] at hclean
  rw [decodeDigits, decodeDigits, h.upcomingDigits_eq hle]
  have hnot := not_not.mpr hwidth
  rw [if_neg hnot] at hclean
  rw [if_neg hnot, if_neg hnot]
  split
  · exact htimes.pushByte _
  · rename_i hbyte
    rw [if_neg hbyte] at hclean
    split
    · exact htimes.pushChar _
    · rename_i hnone
      rw [hnone] at hclean
      exact absurd hclean Array.push_ne_empty

namespace Rule

theorem isFaithful_hexEscape {e : HexEscape} (he : e.flag ≠ ' ') :
    IsFaithful ((hexEscape e).eval flags) := by
  refine isFaithful_settle ?_ ?_
  · intro v rest rest' s t hrest h hattempt
    rw [HexEscape.attempt] at hattempt ⊢
    split at hattempt
    · exact absurd hattempt (Option.some_ne_none _)
    · rename_i hout
      exact if_neg fun ht => hout (h.current?_imp hrest he ht)
  · intro v w rest rest' s t u hrest h hattempt hclean hstay
    rw [HexEscape.attempt] at hattempt ⊢
    split at hattempt
    · rename_i hflag
      obtain rfl := Option.some.inj hattempt
      obtain ⟨x, hx⟩ : ∃ x, Assembles (fun _ => True) s.skip x (e.decodeDigits s.skip) :=
        e.assembles_decodeDigits s.skip
      obtain rfl := h.eq_cons (.inr rfl) hflag hx.consumes hstay
      rw [if_pos h.current?_replayed]
      exact ⟨_, rfl, HexEscape.shadows_decodeDigits h.skip hclean hstay⟩
    · exact absurd hattempt.symm (Option.some_ne_none u)

end Rule

namespace OctalEscape

variable {e : OctalEscape}

theorem attempt_eq_none_iff : e.attempt s = none ↔ s.isIn .octalDigit = false := by
  rw [attempt]
  cases s.isIn .octalDigit with
  | false => simp
  | true => simp only [Bool.not_true, Bool.false_eq_true, if_false, apply_ite (· = none)]; simp

/-- Digits that are not reported are consumed. -/
theorem attempt_of_clean (h : e.attempt s = some u) (hclean : u.draft.diagnostics = #[]) :
    (s.upcomingDigits 3 .octalDigit).length = 3 ∧
      u.upcoming.chars = (s.times 3 .skip).upcoming.chars := by
  rw [attempt] at h
  split at h
  · exact absurd h.symm (Option.some_ne_none u)
  · dsimp only at h
    split at h
    · obtain rfl := Option.some.inj h
      exact absurd hclean Array.push_ne_empty
    · rename_i hdigits
      have hlength : (s.upcomingDigits 3 .octalDigit).length = 3 := by
        simp only [Bool.or_eq_true, decide_eq_true_eq, not_or, not_not] at hdigits
        exact hdigits.1
      split at h
      · obtain rfl := Option.some.inj h
        exact ⟨hlength, rfl⟩
      · obtain rfl := Option.some.inj h
        exact ⟨hlength, rfl⟩

end OctalEscape

namespace Rule

theorem isFaithful_octalEscape (e : OctalEscape) : IsFaithful ((octalEscape e).eval flags) := by
  have hblank : CharClass.octalDigit.contains ' ' = false := by decide
  refine isFaithful_settle ?_ ?_
  · intro v rest rest' s t hrest h hattempt
    rw [OctalEscape.attempt_eq_none_iff, Bool.eq_false_iff] at hattempt ⊢
    exact fun ht => hattempt (h.isIn_imp hrest hblank ht)
  · intro v w rest rest' s t u hrest h hattempt hclean hstay
    obtain ⟨hlength, hup⟩ := OctalEscape.attempt_of_clean hattempt hclean
    obtain ⟨hle, htimes⟩ := h.times (.inr rfl) (le_length_of_upcomingDigits hlength) (hup ▸ hstay)
    have hne : v ≠ [] := List.length_pos_iff.mp (by omega)
    rw [OctalEscape.attempt] at hattempt ⊢
    rw [h.isIn_eq hrest hblank fun _ => hne, h.upcomingDigits_eq hle]
    split at hattempt
    · exact absurd hattempt.symm (Option.some_ne_none u)
    · rename_i hin
      rw [if_neg hin]
      dsimp only at hattempt ⊢
      split at hattempt
      · obtain rfl := Option.some.inj hattempt
        exact absurd hclean Array.push_ne_empty
      · rename_i hdigits
        rw [if_neg hdigits]
        split at hattempt
        · rename_i hbyte
          obtain rfl := Option.some.inj hattempt
          exact ⟨_, if_pos hbyte, htimes.pushByte _⟩
        · rename_i hbyte
          obtain rfl := Option.some.inj hattempt
          exact ⟨_, if_neg hbyte, htimes.pushChar _⟩

/-! ### Rules in order -/

/-- Steady rules that are tried in order are faithful if each of them is. -/
theorem isFaithful_evalFirst {labels : String → Prop} {rules : List Rule}
    (hsteady : ∀ r ∈ rules, r.IsSteady flags labels)
    (h : ∀ r ∈ rules, IsFaithful (r.eval flags)) : IsFaithful (evalFirst flags rules) := by
  induction rules with
  | nil => exact isFaithful_ok false
  | cons r rs ih =>
    obtain ⟨hr, hrs⟩ := List.forall_mem_cons.mp h
    obtain ⟨hrsteady, hrssteady⟩ := List.forall_mem_cons.mp hsteady
    intro v w rest rest' s t u found hrest h htry hclean hstay
    rcases evalFirst_cases htry with ⟨he, rfl⟩ | ⟨s', hs', hattempt⟩
    · obtain ⟨u', hu', hshadows⟩ := hr hrest h he hclean hstay
      exact ⟨u', by rw [evalFirst_cons, hu']; rfl, hshadows⟩
    · -- A steady rule that does not match leaves the scanner as it is.
      have hmissed := hrsteady s
      rw [hs'] at hmissed
      cases hmissed
      obtain ⟨t', ht', hshadows⟩ := hr hrest h hs' h.diagnostics h.upcoming
      obtain ⟨u', hu', hshadows'⟩ := ih hrssteady hrs hrest hshadows hattempt hclean hstay
      exact ⟨u', by rw [evalFirst_cons, ht']; exact hu', hshadows'⟩

theorem isFaithful_evalLead {lead : Option Rule} (h : ∀ r ∈ lead, IsFaithful (r.eval flags)) :
    IsFaithful (evalLead flags lead) := by
  cases lead with
  | none => exact isFaithful_ok true
  | some r => exact h r rfl

end Rule

/-! ### Quoted texts -/

/-- No mark of the quoted text is a blank. -/
@[mk_iff]
structure Quotation.LacksBlank (q : Quotation) : Prop where
  opening : q.opening ≠ ' '
  closing : q.closing ≠ ' '
  escape : q.escape ≠ some ' '

namespace Quotation

instance (q : Quotation) : Decidable q.LacksBlank :=
  decidable_of_iff' _ (lacksBlank_iff q)

variable {q : Quotation} {escapes : Scanner → Outcome} {labels : String → Prop}

theorem isEscape_imp (hq : q.LacksBlank) (hrest : IsParted rest') (h : s.Shadows v rest rest' t)
    (ht : q.isEscape t.current? = true) : q.isEscape s.current? = true := by
  cases hcurrent : t.current? with
  | none => simp [hcurrent, isEscape] at ht
  | some c =>
    rw [hcurrent] at ht
    have hc : c ≠ ' ' := by
      rintro rfl
      have hblank : some ' ' = q.escape := by simpa [isEscape] using ht
      exact hq.escape hblank.symm
    rwa [h.current?_imp hrest hc hcurrent]

/-- What stands after an escape flag is decoded the same, unless it is reported. -/
theorem shadows_unescape (hescapes : IsFaithful escapes) (hq : q.LacksBlank)
    (hrest : IsParted rest') (flag : Char) (h : s.Shadows v rest rest' t)
    (hu : q.unescape escapes flag s = .ok u) (hclean : u.draft.diagnostics = #[])
    (hstay : u.upcoming.chars = w ++ rest) :
    ∃ u', q.unescape escapes flag t = .ok u' ∧ u.Shadows w rest rest' u' := by
  rw [unescape] at hu ⊢
  by_cases hplain : s.current? = some q.closing ∨ q.isEscape s.current? = true
  · have hcond : (s.current? = some q.closing || q.isEscape s.current?) = true := by
      simpa using hplain
    rw [if_pos hcond] at hu
    obtain rfl := Except.ok.inj hu
    obtain ⟨c, hc⟩ : ∃ c, s.current? = some c := by
      cases hs : s.current? with
      | some c => exact ⟨c, rfl⟩
      | none => simp [hs, isEscape] at hplain
    obtain rfl := h.eq_cons (.inl rfl) hc (.refl _) hstay
    rw [h.current?_replayed, ← h.current?_eq, if_pos hcond]
    exact ⟨_, rfl, h.keep⟩
  · have hplain' : ¬(t.current? = some q.closing ∨ q.isEscape t.current? = true) :=
      mt (Or.imp (h.current?_imp hrest hq.closing) (isEscape_imp hq hrest h)) hplain
    rw [if_neg (by simpa using hplain)] at hu
    rw [if_neg (by simpa using hplain')]
    obtain ⟨⟨decoded, a⟩, ha, hu⟩ := exists_of_bind_eq_ok hu
    cases decoded with
    | false =>
      obtain rfl := Except.ok.inj hu
      exact absurd hclean Array.push_ne_empty
    | true =>
      obtain rfl := Except.ok.inj hu
      obtain ⟨a', ha', hshadows⟩ := hescapes hrest h ha hclean hstay
      exact ⟨a', by rw [ha']; rfl, hshadows⟩

/-- A pass over the body of a quoted text about which nothing is reported: the text is closed, an
escape is decoded, or a code point stands for itself. -/
theorem body_cases {bound depth length : Nat}
    (hu : q.body escapes (bound + 1) depth length s = .ok u) (hclean : u.draft.diagnostics = #[])
    (hs : s.draft.diagnostics = #[]) :
    ∃ c, s.current? = some c ∧ ((c = q.closing ∧ depth = 0) ∧ u = s.skip ∨
      ¬(c = q.closing ∧ depth = 0) ∧ ¬q.endsLine c = true ∧ ¬q.maxLength = some length ∧
        (q.isEscape (some c) = true ∧ (∃ a, q.unescape escapes c s.skip = .ok a ∧
            a.draft.diagnostics = #[] ∧ q.body escapes bound depth (length + 1) a = .ok u) ∨
          ¬q.isEscape (some c) = true ∧
            q.body escapes bound (q.depthAfter depth c) (length + 1) s.keep = .ok u)) := by
  have hrecover {m : Move} (hm : m.IsForward) {a : Scanner} (h : q.recover m a = u) :
      a.draft.diagnostics = #[] := by
    obtain ⟨_, hx⟩ := q.assembles_recover (fun _ => True) hm a
    exact hx.diagnostics_eq_empty (h ▸ hclean)
  rw [body] at hu
  cases hc : s.current? with
  | none =>
    rw [hc] at hu
    obtain rfl := Except.ok.inj hu
    exact absurd hclean Array.push_ne_empty
  | some c =>
    refine ⟨c, rfl, ?_⟩
    rw [hc] at hu
    dsimp only at hu
    split at hu
    · exact .inl ⟨‹_›, (Except.ok.inj hu).symm⟩
    · split at hu
      · obtain rfl := Except.ok.inj hu
        exact absurd hclean Array.push_ne_empty
      · split at hu
        · exact absurd (hrecover (.inr rfl) (Except.ok.inj hu)) Array.push_ne_empty
        · refine .inr ⟨‹_›, ‹_›, ‹_›, ?_⟩
          split at hu
          · obtain ⟨a, ha, hu⟩ := exists_of_bind_eq_ok hu
            have hsize : ¬s.draft.diagnostics.size < a.draft.diagnostics.size := by
              intro hlt
              rw [if_pos hlt] at hu
              rw [hrecover (.inl rfl) (Except.ok.inj hu)] at hlt
              exact absurd hlt (Nat.not_lt_zero _)
            rw [if_neg hsize] at hu
            refine .inl ⟨‹_›, a, ha, Array.eq_empty_of_size_eq_zero ?_, hu⟩
            simpa [hs] using hsize
          · exact .inr ⟨‹_›, hu⟩

/-- A code point that stands for itself is kept, and the body goes on. -/
theorem body_of_keep {bound depth length : Nat} {c : Char} (hc : s.current? = some c)
    (hclosing : ¬(c = q.closing ∧ depth = 0)) (hline : ¬q.endsLine c = true)
    (hmax : ¬q.maxLength = some length) (hescape : ¬q.isEscape (some c) = true) :
    q.body escapes (bound + 1) depth length s =
      q.body escapes bound (q.depthAfter depth c) (length + 1) s.keep := by
  rw [body, hc]
  dsimp only
  rw [if_neg hclosing, if_neg hline, if_neg hmax, if_neg hescape]

/-- An escape about which nothing is reported is decoded, and the body goes on. -/
theorem body_of_escape {bound depth length : Nat} {c : Char} {a : Scanner}
    (hc : s.current? = some c) (hclosing : ¬(c = q.closing ∧ depth = 0))
    (hline : ¬q.endsLine c = true) (hmax : ¬q.maxLength = some length)
    (hescape : q.isEscape (some c) = true) (ha : q.unescape escapes c s.skip = .ok a)
    (hclean : a.draft.diagnostics = #[]) :
    q.body escapes (bound + 1) depth length s = q.body escapes bound depth (length + 1) a := by
  rw [body, hc]
  dsimp only
  rw [if_neg hclosing, if_neg hline, if_neg hmax, if_pos hescape, ha]
  refine if_neg ?_
  rw [hclean]
  exact Nat.not_lt_zero _

/-- The bodies of quoted texts are consumed within bounds that exceed the upcoming texts. -/
theorem shadows_body (hescapes : IsFaithful escapes)
    (hsteady : ∀ s, Outcome.Steady labels s (escapes s)) (hq : q.LacksBlank)
    (hrest : IsParted rest') {bound bound' : Nat} (depth length : Nat)
    (hbound : s.upcoming.chars.length < bound) (hbound' : t.upcoming.chars.length < bound')
    (h : s.Shadows v rest rest' t) (hu : q.body escapes bound depth length s = .ok u)
    (hclean : u.draft.diagnostics = #[]) (hstay : u.upcoming.chars = w ++ rest) :
    ∃ u', q.body escapes bound' depth length t = .ok u' ∧ u.Shadows w rest rest' u' := by
  induction bound generalizing bound' depth length s t v with
  | zero => omega
  | succ bound ih =>
    obtain ⟨bound', rfl⟩ : ∃ k, bound' = k + 1 := Nat.exists_eq_add_one.mpr (by omega)
    -- What the rest of the body consumes tells how much of the common text is consumed before it.
    have hrestOfBody {a : Scanner} {depth length : Nat} (ha : a.upcoming.chars.length < bound)
        (hu : q.body escapes bound depth length a = .ok u) : ∃ x, Assembles labels a x u := by
      obtain ⟨x, _, hu', hx⟩ := exists_body hsteady q bound depth length ha
      obtain rfl := Except.ok.inj (hu.symm.trans hu')
      exact ⟨x, hx⟩
    obtain ⟨c, hs, hcases⟩ := body_cases hu hclean h.diagnostics
    have hlength := congrArg List.length (upcoming_of_current? hs)
    rw [List.length_cons] at hlength
    rcases hcases with ⟨hclosing, rfl⟩ | ⟨hclosing, hline, hmax, ⟨hescape, a, ha, haclean, hu⟩ |
      ⟨hescape, hu⟩⟩
    · obtain rfl := h.eq_cons (.inr rfl) hs (.refl _) hstay
      rw [body, h.current?_replayed]
      exact ⟨_, if_pos hclosing, h.skip⟩
    · obtain ⟨y, _, ha', hy⟩ := exists_unescape hsteady q c s.skip
      obtain rfl := Except.ok.inj (ha.symm.trans ha')
      have hconsumed := hy.consumes.length_le
      rw [show s.skip.upcoming.chars = _ from upcoming_apply (.inr rfl) s] at hconsumed
      obtain ⟨x, hx⟩ := hrestOfBody (by omega) hu
      obtain rfl := h.eq_cons (.inr rfl) hs (hy.trans hx).consumes hstay
      have hup : a.upcoming.chars = (x ++ w) ++ rest := by
        rw [hx.consumes.upcoming, hstay, List.append_assoc]
      obtain ⟨a', ha', hshadows⟩ := shadows_unescape hescapes hq hrest c h.skip ha haclean hup
      have hbound' : a'.upcoming.chars.length < bound' := by
        rw [hshadows.replayed]
        rw [h.replayed] at hbound'
        simp only [List.length_append, List.length_cons] at hbound' ⊢
        omega
      rw [body_of_escape h.current?_replayed hclosing hline hmax hescape ha'
        (hshadows.draft ▸ haclean)]
      exact ih depth (length + 1) (by omega) hbound' hshadows hu
    · have hkeep : s.keep.upcoming.chars = s.upcoming.chars.tail := upcoming_apply (.inl rfl) s
      have hbound : s.keep.upcoming.chars.length < bound := by
        rw [hkeep]
        omega
      obtain ⟨x, hx⟩ := hrestOfBody hbound hu
      obtain rfl := h.eq_cons (.inl rfl) hs hx.consumes hstay
      have hbound' : t.keep.upcoming.chars.length < bound' := by
        rw [h.keep.replayed]
        rw [h.replayed] at hbound'
        simp only [List.cons_append, List.length_cons] at hbound'
        omega
      rw [body_of_keep h.current?_replayed hclosing hline hmax hescape]
      exact ih (q.depthAfter depth c) (length + 1) hbound hbound' h.keep hu

end Quotation

theorem Rule.isFaithful_quotation {q : Quotation} {escapes : List Rule} {labels : String → Prop}
    (hq : q.LacksBlank) (hsteady : ∀ r ∈ escapes, r.IsSteady flags labels)
    (hescapes : ∀ r ∈ escapes, IsFaithful (r.eval flags)) :
    IsFaithful ((quotation q escapes).eval flags) := by
  intro v w rest rest' s t u found hrest h htry hclean hstay
  rw [eval_quotation, Quotation.scan] at htry ⊢
  by_cases hs : s.current? = some q.opening
  · rw [if_pos hs] at htry
    obtain ⟨a, ha, htry⟩ := exists_of_bind_eq_ok htry
    obtain ⟨rfl, rfl⟩ := Prod.mk.inj (Except.ok.inj htry)
    have hbound := (s.skip.setKind q.kind).two_mul_length_lt_allowance
    obtain ⟨x, _, ha', hx⟩ := Quotation.exists_body (steady_evalFirst hsteady) q
      (s := s.skip.setKind q.kind)
      ((s.skip.setKind q.kind).allowance + q.maxLength.getD 0 + 1) 0 0 (by omega)
    obtain rfl := Except.ok.inj (ha.symm.trans ha')
    have hopening := ((Consumes.refl s.skip).setKind q.kind).trans hx.consumes
    obtain rfl := h.eq_cons (.inr rfl) hs hopening hstay
    have hbound' : (t.skip.setKind q.kind).upcoming.chars.length <
        (t.skip.setKind q.kind).allowance + q.maxLength.getD 0 + 1 := by
      have hallowance := (t.skip.setKind q.kind).two_mul_length_lt_allowance
      omega
    obtain ⟨u', hu', hshadows⟩ := Quotation.shadows_body
      (isFaithful_evalFirst hsteady hescapes) (steady_evalFirst hsteady) hq hrest 0 0 (by omega)
      hbound' (h.skip.setKind q.kind) ha hclean hstay
    rw [if_pos h.current?_replayed]
    exact ⟨u', by dsimp only; rw [hu']; rfl, hshadows⟩
  · rw [if_neg hs] at htry
    rw [if_neg (mt (h.current?_imp hrest hq.opening) hs)]
    exact isFaithful_ok false hrest h htry hclean hstay

/-! ### Rules for tokens -/

namespace Rule

/-- At the beginning of a token, the rule makes the same token of a text that is cut out, unless it
reports something or makes nothing of it. Where the rule does not match, it does not match in the
replay. -/
structure Replays (flags : Flags) (r : Rule) : Prop where
  matched : ∀ ⦃v rest rest' s t u⦄, IsParted rest' → s.IsFresh → v ≠ [] →
    s.Shadows v rest rest' t → r.eval flags s = .ok (true, u) → u.upcoming.chars = rest →
    u.draft.diagnostics = #[] → ¬(u.draft.value = [] ∧ u.draft.kind = "") →
    ∃ u', r.eval flags t = .ok (true, u') ∧ u.Shadows [] rest rest' u'
  missed : ∀ ⦃v rest rest' s t u⦄, IsParted rest' → v ≠ [] → s.Shadows v rest rest' t →
    r.eval flags s = .ok (false, u) → ∃ u', r.eval flags t = .ok (false, u')

/-- Faithful rules that leave the scanner as it is where they do not match. -/
theorem replays_of_isFaithful {r : Rule} (h : IsFaithful (r.eval flags))
    (hmiss : ∀ s u, r.eval flags s = .ok (false, u) → u = s) : r.Replays flags where
  matched _ _ _ _ _ _ hrest _ _ hst hu hstay hclean _ := h hrest hst hu hclean hstay
  missed _ _ _ s _ u hrest _ hst hu := by
    obtain rfl := hmiss s u hu
    obtain ⟨u', hu', -⟩ := h hrest hst hu hst.diagnostics hst.upcoming
    exact ⟨u', hu'⟩

theorem eq_of_settle {attempt : Option Scanner}
    (h : Outcome.settle s attempt = .ok (false, u)) : attempt = none ∧ u = s := by
  cases attempt with
  | none => exact ⟨rfl, (Prod.mk.inj (Except.ok.inj h)).2.symm⟩
  | some a => exact absurd (Prod.mk.inj (Except.ok.inj h)).1.symm Bool.false_ne_true

theorem replays_literal {l : LiteralRule} (hwords : ∀ w, l.words.contains w → ' ' ∉ w) :
    (literal l).Replays flags :=
  replays_of_isFaithful (isFaithful_literal hwords) fun _ _ h => (eq_of_settle h).2

theorem replays_name {n : NameRule} (hhead : n.head.contains ' ' = false)
    (htail : n.tail.contains ' ' = false) : (name n).Replays flags :=
  replays_of_isFaithful (isFaithful_name hhead htail) fun _ _ h => (eq_of_settle h).2

theorem replays_quotation {q : Quotation} {escapes : List Rule} (hq : q.LacksBlank)
    (hsteady : ∀ r ∈ escapes, r.IsSteady flags fun _ => True)
    (hescapes : ∀ r ∈ escapes, IsFaithful (r.eval flags)) :
    (quotation q escapes).Replays flags := by
  refine replays_of_isFaithful (isFaithful_quotation hq hsteady hescapes) fun s u h => ?_
  rcases Quotation.scan_cases h with ⟨-, rfl⟩ | ⟨hmatched, -⟩
  · rfl
  · exact absurd hmatched Bool.false_ne_true

/-- Comments that are dropped or reported are never asked for again. -/
theorem replays_comment {r : CommentRule} (hwords : ∀ w, r.opening.words.contains w → ' ' ∉ w)
    (hdropped : ∀ s u, s.IsFresh → r.attempt flags s = some u → u.draft.diagnostics = #[] →
      u.draft.value = [] ∧ u.draft.kind = "") : (comment r).Replays flags where
  matched _ _ _ s _ u _ hs _ _ hu _ hclean hmade :=
    absurd (hdropped s u hs (eq_some_of_settle hu) hclean) hmade
  missed _ _ _ s t _ hrest hv hst hu := by
    have hnone := Option.map_eq_none_iff.mp (eq_of_settle hu).1
    have hopening : (literal r.opening).eval flags s = .ok (false, s) := by
      rw [eval_literal, hnone]
      rfl
    obtain ⟨u', hu'⟩ := (replays_literal hwords).missed hrest hv hst hopening
    refine ⟨t, ?_⟩
    rw [eval_comment, CommentRule.attempt, (eq_of_settle hu').1]
    rfl

/-- The first rule that matches makes the same token in the replay, because those before it do not
match there either. -/
theorem replays_evalFirst {Q : List Char → Scanner → Prop} {rules : List Rule}
    (hsound : ∀ r ∈ rules, r.IsSound flags Q) (h : ∀ r ∈ rules, r.Replays flags)
    (hrest : IsParted rest') (hs : s.IsFresh) (ht : t.IsFresh) (hv : v ≠ [])
    (hst : s.Shadows v rest rest' t) (hu : evalFirst flags rules s = .ok (true, u))
    (hstay : u.upcoming.chars = rest) (hclean : u.draft.diagnostics = #[])
    (hmade : ¬(u.draft.value = [] ∧ u.draft.kind = "")) :
    ∃ u', evalFirst flags rules t = .ok (true, u') ∧ u.Shadows [] rest rest' u' := by
  induction rules generalizing s t with
  | nil => exact absurd (Prod.mk.inj (Except.ok.inj hu)).1 Bool.false_ne_true
  | cons r rs ih =>
    obtain ⟨hr, hrs⟩ := List.forall_mem_cons.mp h
    obtain ⟨hrsound, hrssound⟩ := List.forall_mem_cons.mp hsound
    rcases evalFirst_cases hu with ⟨he, -⟩ | ⟨s', hs', hu'⟩
    · obtain ⟨u', hu', hshadows⟩ := hr.matched hrest hs hv hst he hstay hclean hmade
      exact ⟨u', by rw [evalFirst_cons, hu']; rfl, hshadows⟩
    · obtain ⟨t', ht'⟩ := hr.missed hrest hv hst hs'
      have hrestores {s s' : Scanner} (hs : s.IsFresh) (he : r.eval flags s = .ok (false, s')) :
          s.Restores s' := by
        have hsound := hrsound s hs
        rw [he] at hsound
        cases hsound with
        | missed h => exact h
      have hsr := hrestores hs hs'
      have htr := hrestores ht ht'
      obtain ⟨u', hu', hshadows⟩ := ih hrssound hrs (hsr.isFresh hs) (htr.isFresh ht)
        (hst.of_restores hsr htr) hu'
      exact ⟨u', by rw [evalFirst_cons, ht']; exact hu', hshadows⟩

end Rule

end Lexing
