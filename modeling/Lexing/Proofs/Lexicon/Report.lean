import Lexing.Proofs.Lexicon.Failure
import Lexing.Proofs.Lexicon.Tiling
import Lexing.Proofs.Rule.Report

/-!
# Diagnostics and kinds of tokens

A token is coherent if its kind tells whether it carries diagnostics: an illegal token has problems
of its own text, a token of the kind of errors reports a failure of the byte source, and no other
token has diagnostics. Whatever is asked of a lexicon, one call after another and under any flags,
every token is coherent if its rules tag their drafts and its hook keeps tokens coherent.

## Main definitions

* `Token.IsCoherent` : kind and diagnostics of the token say the same.
* `Scanner.HasCause` : a failure that was noticed has a cause.
* `Lexicon.Reached` : scanners after any number of calls under any flags.
* `Lexicon.IsCandid` : the lexicon makes coherent tokens under all flags.

## Main results

* `Lexicon.IsCandid.isCoherent_of_next` : one call.
* `Lexicon.IsCandid.isFresh_of_reached` : all calls.
-/

namespace Lexing

/-- The token carries diagnostics if and only if it is illegal or an error. It is an error if and
only if a diagnostic has a cause, and the other diagnostics have the position of the token. -/
structure Token.IsCoherent (token : Token) : Prop where
  diagnosed_iff : token.diagnostics ≠ [] ↔ token.kind = Kind.illegal ∨ token.kind = Kind.error
  caused_iff : token.kind = Kind.error ↔ ∃ d ∈ token.diagnostics, d.cause ≠ none
  position_eq : ∀ d ∈ token.diagnostics, d.cause = none → d.position = token.position

/-- A token without diagnostics is coherent unless its kind says otherwise. -/
theorem Token.isCoherent_of_diagnostics_eq {token : Token} (h : token.diagnostics = [])
    (hillegal : token.kind ≠ Kind.illegal) (herror : token.kind ≠ Kind.error) :
    token.IsCoherent :=
  ⟨by simp [h, hillegal, herror], by simp [h, herror], by simp [h]⟩

/-- A token that reports one failure is coherent. -/
theorem Token.isCoherent_of_cause {token : Token} {report : Diagnostic}
    (hkind : token.kind = Kind.error) (h : token.diagnostics = [report])
    (hcause : report.cause ≠ none) : token.IsCoherent := by
  refine ⟨by simp [h, hkind], ⟨fun _ => ⟨report, by simp [h], hcause⟩, fun _ => hkind⟩, ?_⟩
  intro d hd hnone
  rw [h, List.mem_singleton] at hd
  exact absurd (hd ▸ hnone) hcause

namespace Scanner

variable {labels : String → Prop} {s t : Scanner} {m : Move}

/-! ### Tokens -/

theorem IsTagged.checkValue (h : s.IsTagged) : s.checkValue.IsTagged := by
  rcases s.checkValue_eq with hs | ⟨problem, hs⟩ <;> rw [hs]
  · exact h
  · exact h.reject problem

/-- A tagged draft becomes a coherent token, unless it would be taken for an illegal one or for an
error. -/
theorem IsTagged.isCoherent (h : s.IsTagged)
    (hunnamed : s.draft.kind = "" → s.valueText ≠ Kind.illegal)
    (herror : s.checkValue.assembled.kind ≠ Kind.error) :
    s.checkValue.assembled.IsCoherent := by
  have htagged := h.checkValue
  have hillegal : s.checkValue.draft.kind = Kind.illegal ↔
      s.checkValue.assembled.kind = Kind.illegal := by
    by_cases hkind : s.checkValue.draft.kind = ""
    · have hchecked : s.checkValue = s := by
        rcases s.checkValue_eq with hs | ⟨problem, hs⟩
        · exact hs
        · rw [hs] at hkind
          exact absurd hkind (by decide : Kind.illegal ≠ "")
      rw [hchecked] at hkind ⊢
      simpa [assembled, emittedKind, hkind, Kind.illegal] using hunnamed hkind
    · rw [kind_assembled_of_kind_ne hkind]
  have hcause : ∀ d ∈ s.checkValue.assembled.diagnostics, d.cause = none := fun d hd =>
    (htagged.report d (Array.mem_toList_iff.mp hd)).2
  refine ⟨?_, ⟨fun h => absurd h herror, ?_⟩, fun d hd _ => ?_⟩
  · rw [or_iff_left herror, ← hillegal, ← htagged.illegal_iff]
    simp [assembled]
  · rintro ⟨d, hd, hsome⟩
    exact absurd (hcause d hd) hsome
  · exact (htagged.report d (Array.mem_toList_iff.mp hd)).1

/-! ### Failures that were noticed -/

/-- A failure that was noticed has a cause. -/
def HasCause (s : Scanner) : Prop :=
  ∀ report ∈ s.failure, report.cause ≠ none

theorem hasCause_notice (h : s.HasCause) (cause : Option String) : (s.notice cause).HasCause := by
  cases cause with
  | none => exact h
  | some cause =>
    intro report hreport
    obtain rfl := Option.some.inj hreport
    exact Option.some_ne_none cause

theorem hasCause_ofStream (name : String) (input : CharStream) :
    (ofStream name input).HasCause :=
  hasCause_notice (fun report h => absurd h (Option.not_mem_none report)) _

namespace HasCause

theorem advance (h : s.HasCause) (c : Char) : (s.advance c).HasCause := by
  refine hasCause_notice ?_ _
  exact h

theorem apply (hm : m.IsForward) (h : s.HasCause) : (m.apply s).HasCause := by
  rcases hm with rfl | rfl
  · change s.keep.HasCause
    rw [keep]
    split
    · rename_i c _
      exact advance (s := (s.pushChar c).pushLiteral c) h c
    · exact h
  · change s.skip.HasCause
    rw [skip]
    split
    · rename_i c _
      exact advance (s := s.pushLiteral c) h c
    · exact h

theorem evolves (h : s.HasCause) (ht : s.Evolves labels t) : t.HasCause :=
  ht.invariant (fun _ _ hm hu => hu.apply hm) (fun _ _ hu => hu) (fun _ hu => hu) h

theorem whileIn_discard (h : s.HasCause) (k : CharClass) :
    (s.whileIn k .discard).HasCause := by
  rw [whileIn]
  generalize s.upcoming.chars = bound
  induction bound generalizing s with
  | nil => exact h
  | cons c bound ih =>
    rw [moveWhile]
    split
    · refine ih ?_
      change s.discard.HasCause
      rw [discard]
      split
      · exact h.advance _
      · exact h
    · exact h

theorem renew (h : s.HasCause) : s.renew.HasCause := by
  rw [renew_eq]
  exact h

end HasCause

/-! ### The end of the text -/

/-- At the end of the text a fresh scanner emits a coherent token, which is the report of a failure
or the end, and is fresh again. -/
theorem exists_emit_of_atEnd (hs : s.IsFresh) (hcause : s.HasCause) (hend : s.atEnd = true) :
    ∃ token t, s.emit = .ok (token, t) ∧ token.IsCoherent ∧ t.IsFresh ∧ t.HasCause := by
  cases hf : s.failure with
  | some report =>
    refine ⟨_, _, emit_of_failure hs.1 hf, ?_, ⟨rfl, rfl⟩, ?_⟩
    · exact Token.isCoherent_of_cause rfl (by simp [hs.1]) (hcause report hf)
    · exact fun report h => absurd h (Option.not_mem_none report)
  | none =>
    refine ⟨_, _, emit_eq_of_atEnd hs.1 hf hend, ?_, ⟨rfl, rfl⟩, ?_⟩
    · exact Token.isCoherent_of_diagnostics_eq (by simp [assembled, setKind, hs.1])
        (by decide : Kind.endOfText ≠ Kind.illegal) (by decide : Kind.endOfText ≠ Kind.error)
    · exact hcause

end Scanner

namespace Lexicon

open Scanner

variable {x : Lexicon} {flags : Flags} {p : Profile} {s t : Scanner}

/-! ### One token -/

/-- The tokens that rules make are coherent if the rules tag their drafts. -/
theorem Fits.coherent (hx : x.Fits flags p) (hdiscard : x.discardRule = none)
    (htags : ∀ r ∈ x.rules, r.Tags flags)
    (herror : ∀ {token w rest}, p.scanned token w rest → token.kind ≠ Kind.error) :
    x.Fits flags { p with scanned := fun token _ _ => token.IsCoherent } :=
  { hx with
    rules := by
      intro r hr s hs
      have hsound := hx.rules r hr s hs
      have htag := htags r hr s
      generalize r.eval flags s = o at hsound htag
      cases hsound with
      | matched hw ht hmade =>
        obtain ⟨htagged, hunnamed⟩ := htag _ hs rfl
        exact .matched hw ht (htagged.isCoherent hunnamed (herror hmade))
      | missed ht => exact .missed ht
    discardRule := by simp [hdiscard]
    unexpected := by
      intro s c hs hc
      have htagged : s.keepUnexpected.IsTagged :=
        ((isTagged_of_diagnostics_eq (by rw [hs.1]) (by rw [hs.1]; decide)).reject _).apply
          (.inl rfl)
      refine htagged.isCoherent (fun hkind => ?_) (herror (hx.unexpected s c hs hc))
      exact absurd (s.kind_keepUnexpected.symm.trans hkind) (by decide) }

/-- Under all flags the rules of the lexicon make coherent tokens, none of which is taken for an
error, and its hook keeps tokens coherent. -/
structure IsCandid (x : Lexicon) (p : Flags → Profile) : Prop where
  fits : ∀ flags, x.Fits flags (p flags)
  discardRule : x.discardRule = none
  isBuiltIn : ∀ r ∈ x.rules, r.IsBuiltIn
  tags : ∀ flags, ∀ r ∈ x.rules, r.Tags flags
  error : ∀ {flags token w rest}, (p flags).scanned token w rest → token.kind ≠ Kind.error
  finish : ∀ {flags previous token}, token.IsCoherent →
    ((p flags).finish previous token).IsCoherent

/-- A call that gives a token gives a coherent one and leaves a fresh scanner. -/
theorem IsCandid.isCoherent_of_next {p : Flags → Profile} (hx : x.IsCandid p) (hs : s.IsFresh)
    (hcause : s.HasCause) {token : Token} (hnext : x.next flags s = .ok (token, t)) :
    token.IsCoherent ∧ t.IsFresh ∧ t.HasCause := by
  have hfits := (hx.fits flags).coherent hx.discardRule (hx.tags flags) hx.error
  generalize hn : s.upcoming.chars.length = n
  induction n using Nat.strongRecOn generalizing s with
  | ind n ih =>
    have hgap := passes_whileIn_discard x.discards hs
    have hcause' := hcause.whileIn_discard x.discards
    by_cases hend : (s.whileIn x.discards .discard).atEnd = true
    · rw [next_of_atEnd hx.discardRule hend] at hnext
      obtain ⟨_, _, hemit, hcoherent⟩ := exists_emit_of_atEnd hgap.isFresh hcause' hend
      obtain ⟨rfl, rfl⟩ := Prod.mk.inj (Except.ok.inj (hnext.symm.trans hemit))
      exact hcoherent
    · rw [Bool.not_eq_true] at hend
      obtain ⟨w, u, hread, hw, hconsumes, hmade⟩ := hfits.exists_read hgap.isFresh hend
      have hpass := (hconsumes.passes_renew hgap.isFresh hw).2
      have hrenew := (hcause'.evolves (evolves_read hx.isBuiltIn hread)).renew
      rw [hfits.next_of_read hx.discardRule hs hend hread, accept_eq_kindAfter] at hnext
      split at hnext
      · have hrest := (ifMoved_eq_ok.mp hnext).2
        exact ih _ (hn ▸ hgap.length_lt hpass hw) hpass.isFresh hrenew hrest rfl
      · obtain ⟨rfl, rfl⟩ := Prod.mk.inj (Except.ok.inj hnext)
        exact ⟨hx.finish hmade, hpass.isFresh, hrenew⟩

/-! ### All tokens -/

/-- Calls for the next token lead from `s` to the scanner, each under flags of its own. They may go
on after the end of the text was found. -/
inductive Reached (x : Lexicon) (s : Scanner) : Scanner → Prop
  | start : Reached x s s
  | next {t u : Scanner} {flags : Flags} {token : Token} (h : Reached x s t)
      (hnext : x.next flags t = .ok (token, u)) : Reached x s u

/-- Calls lead to fresh scanners. -/
theorem IsCandid.isFresh_of_reached {p : Flags → Profile} (hx : x.IsCandid p) (hs : s.IsFresh)
    (hcause : s.HasCause) (h : x.Reached s t) : t.IsFresh ∧ t.HasCause := by
  induction h with
  | start => exact ⟨hs, hcause⟩
  | next _ hnext ih => exact (hx.isCoherent_of_next ih.1 ih.2 hnext).2

end Lexicon

end Lexing
