import Lexing.Proofs.Lexicon.Pass
import Lexing.Proofs.Rule.Evolution

/-!
# A failure is reported once, after all tokens

The scan of a text behind which the byte source fails is followed beside the scan of the same text
from a source that does not fail. The two scanners look alike, so that rules make the same tokens of
both. They come apart at the end of the text: there the failure was noticed, and the scanner that
has noticed it reports it before it finds the end.

## Main definitions

* `Scanner.Trails` : a scanner that awaits a failure, and one that looks alike and does not.
* `Token.ofFailure` : the report of a failure.

## Main results

* `Lexicon.Fits.next_of_trails` : one call for the next token.
* `Lexicon.Fits.exhausts_of_trails` : all calls.
-/

namespace Lexing

open Scanner

/-- The report of a failure of the byte source at `position`, which was noticed at `noticed`. -/
def Token.ofFailure (cause : String) (noticed position : Position) : Token where
  kind := Kind.error
  position := position
  diagnostics := [⟨noticed, .unreadable, some cause⟩]

namespace Scanner

variable {cause : String} {s t u v : Scanner} {w : List Char}

/-- Both scanners look alike and are fresh. A failure is to be reported by `s` and none by `t`. -/
structure Trails (cause : String) (s t : Scanner) : Prop where
  alike : s.Alike t
  awaits : s.Awaits cause
  isFresh : s.IsFresh
  isClean : t.IsClean

theorem Alike.isFresh (h : s.Alike t) (hs : s.IsFresh) : t.IsFresh :=
  ⟨h.draft.trans hs.1, h.start.trans (hs.2.trans h.position.symm)⟩

theorem Alike.atEnd_eq (h : s.Alike t) : t.atEnd = s.atEnd :=
  congrArg Option.isNone h.current?_eq

theorem Alike.renew (h : s.Alike t) : s.renew.Alike t.renew :=
  Alike.restart { h.checkValue with stalls := rfl }

theorem Trails.whileIn_discard (h : s.Trails cause t) (k : CharClass) :
    (s.whileIn k .discard).Trails cause (t.whileIn k .discard) where
  alike := h.alike.whileIn_discard k
  awaits := h.awaits.whileIn_discard k
  isFresh := (passes_whileIn_discard k h.isFresh).isFresh
  isClean := (passes_whileIn_discard k (h.alike.isFresh h.isFresh)).isClean h.isClean

theorem Trails.accept (h : s.Trails cause t) (token : Token) :
    (Lexicon.accept token s).2.Trails cause (Lexicon.accept token t).2 := by
  rw [Lexicon.accept_eq, Lexicon.accept_eq, h.alike.previousKind]
  exact ⟨{ h.alike with previousKind := rfl }, h.awaits.congr rfl rfl, h.isFresh, h.isClean⟩

end Scanner

namespace Lexicon

variable {x : Lexicon} {flags : Flags} {p : Profile} {cause : String} {s t : Scanner}
  {tokens : List Token}

/-! ### One token -/

/-- Reading does the same to scanners that are related by a congruence. -/
theorem related_read {R : Scanner → Scanner → Prop} (hR : IsCongruence R)
    (hrules : ∀ r ∈ x.rules, r.IsBuiltIn) (h : R s t) :
    Corresponds R (x.read flags s) (x.read flags t) := by
  have hnil := Rule.functionsOfAll_eq_nil fun r hr => (hrules r hr).functions_eq_nil
  refine (Rule.related_evalFirst hR x.rules (by simp [hnil]) s t h).bind ?_
  rintro ⟨_, u⟩ ⟨matched, v⟩ ⟨rfl, huv⟩
  dsimp only
  rw [hR.atEnd_eq huv]
  split
  · exact .ok huv
  · exact .ok (hR.keepUnexpected huv)

theorem evolves_read (hrules : ∀ r ∈ x.rules, r.IsBuiltIn) (h : x.read flags s = .ok t) :
    s.Evolves (fun _ => True) t := by
  obtain ⟨⟨matched, u⟩, hfirst, h⟩ := exists_of_bind_eq_ok h
  have hu := Rule.evolves_evalFirst (fun r hr => (hrules r hr).evolves_eval flags) s _ _ hfirst
  obtain rfl := Except.ok.inj h
  split
  · exact hu
  · exact (hu.reject _).trans (.move (.inl rfl) _)

/-- The same text is read for a token by both scanners. -/
theorem Fits.exists_read_of_trails (hx : x.Fits flags p) (hrules : ∀ r ∈ x.rules, r.IsBuiltIn)
    (h : s.Trails cause t) (hend : s.atEnd = false) :
    ∃ u v w, x.read flags s = .ok u ∧ x.read flags t = .ok v ∧ u.Alike v ∧ w ≠ [] ∧
      Emits p.scanned w u ∧ s.Passes w u.renew ∧ u.renew.Trails cause v.renew := by
  have ht := h.alike.isFresh h.isFresh
  have hend' : t.atEnd = false := h.alike.atEnd_eq.trans hend
  obtain ⟨w, u, hu, hw, hconsumes, hmade⟩ := hx.exists_read h.isFresh hend
  obtain ⟨w', v, hv, hw', hconsumes', -⟩ := hx.exists_read ht hend'
  obtain ⟨hemit, hpass⟩ := hconsumes.passes_renew h.isFresh hw
  obtain ⟨-, hpass'⟩ := hconsumes'.passes_renew ht hw'
  have hcorresponds : Corresponds Scanner.Alike (x.read flags s) (x.read flags t) :=
    related_read isCongruence_alike hrules h.alike
  rw [hu, hv] at hcorresponds
  have hliteral : u.draft.literal ≠ [] := by simpa [hconsumes.literal, h.isFresh.1] using hw
  have hawaits := (h.awaits.evolves (evolves_read hrules hu)).emit hliteral hemit
  cases hcorresponds with
  | ok halike =>
    exact ⟨u, v, w, hu, hv, halike, hw, hmade, hpass, halike.renew, hawaits, hpass.isFresh,
      hpass'.isClean h.isClean⟩

/-- One call: both scanners come to the end of the text, or to the same token. -/
theorem Fits.next_of_trails (hx : x.Fits flags p) (hrules : ∀ r ∈ x.rules, r.IsBuiltIn)
    (hdiscard : x.discardRule = none) (h : s.Trails cause t) {out : Token × Scanner}
    (hout : x.next flags t = .ok out) :
    (∃ u v : Scanner, u.Trails cause v ∧ u.atEnd = true ∧ u.finalPosition = s.finalPosition ∧
      x.next flags s = u.emit ∧ x.next flags t = v.emit) ∨
    ∃ (token : Token) (u v : Scanner), x.next flags s = .ok (token, u) ∧
      x.next flags t = .ok (token, v) ∧ u.Trails cause v ∧ u.finalPosition = s.finalPosition ∧
      ∃ previous w rest, Makes p previous token w rest := by
  generalize hn : s.upcoming.chars.length = n
  induction n using Nat.strongRecOn generalizing s t with
  | ind n ih =>
    have hgap := passes_whileIn_discard x.discards h.isFresh
    have hbetween := h.whileIn_discard x.discards
    by_cases hend : (s.whileIn x.discards .discard).atEnd = true
    · exact .inl ⟨_, _, hbetween, hend, hgap.finalPosition_eq, next_of_atEnd hdiscard hend,
        next_of_atEnd hdiscard (hbetween.alike.atEnd_eq.trans hend)⟩
    · rw [Bool.not_eq_true] at hend
      obtain ⟨u, v, w, hu, hv, halike, hw, hmade, hpass, htrails⟩ :=
        hx.exists_read_of_trails hrules hbetween hend
      have hfinal := hpass.finalPosition_eq.trans hgap.finalPosition_eq
      have hnext := hx.next_of_read hdiscard h.isFresh hend hu
      have hnext' := hx.next_of_read hdiscard (h.alike.isFresh h.isFresh)
        (hbetween.alike.atEnd_eq.trans hend) hv
      rw [halike.checkValue.assembled_eq, h.alike.previousKind] at hnext'
      by_cases hblank : (p.finish s.previousKind u.checkValue.assembled).isBlank = true
      · rw [if_pos hblank] at hnext hnext'
        -- Both scanners have the same position, so that both have moved.
        obtain ⟨hmoved, hrest⟩ := ifMoved_eq_ok.mp (hnext'.symm.trans hout)
        rw [ifMoved_of_ne hmoved] at hnext'
        rw [htrails.alike.position, hbetween.alike.position] at hmoved
        rw [ifMoved_of_ne hmoved] at hnext
        rw [hnext, hnext', ← hfinal]
        exact ih _ (hn ▸ hgap.length_lt hpass hw) htrails hrest rfl
      · rw [if_neg hblank] at hnext hnext'
        rw [hnext, hnext']
        refine .inr ⟨_, _, _, rfl, rfl, htrails.accept _, ?_, _, w, _, .scanned hmade⟩
        rw [← hfinal]
        split <;> rfl

/-! ### All tokens -/

/-- After a failure was reported, the end of the text is found. -/
theorem Fits.exhausts_of_reported (hx : x.Fits flags p) (report : Diagnostic)
    (hend : s.atEnd = true) :
    ∃ last t, x.Exhausts flags (s.emitFailure report).2 [] last t := by
  have hnil : s.upcoming.chars = [] := by simpa [Scanner.atEnd_eq] using hend
  have hclean : (s.emitFailure report).2.IsClean := by
    refine ⟨rfl, Window.ending_eq_none ?_⟩
    rw [show (s.emitFailure report).2.window.text.chars = [] from hnil]
    exact Nat.zero_le 1
  have hshort : (s.emitFailure report).2.upcoming.chars.length < UInt32.size := by
    rw [show (s.emitFailure report).2.upcoming.chars = [] from hnil]
    decide
  obtain ⟨token, t, hnext, hstep⟩ :=
    hx.exists_next (s := (s.emitFailure report).2) ⟨rfl, rfl⟩ (dropsVisibly_of_length hshort)
  cases hstep with
  | token hbrings =>
    have hlength := hbrings.length_lt
    rw [show (s.emitFailure report).2.upcoming.chars = [] from hnil] at hlength
    exact absurd hlength (Nat.not_lt_zero _)
  | failure hclears _ hfailure =>
    rw [(hclears.isClean hclean).1] at hfailure
    exact absurd hfailure.symm (Option.some_ne_none _)
  | ended _ _ _ htoken => exact ⟨token, _, .ended hnext htoken⟩

/-- All calls: the scanner that awaits a failure gives the tokens of the other one, then the report
of the failure, and then the end. -/
theorem Fits.exhausts_of_trails (hx : x.Fits flags p) (hrules : ∀ r ∈ x.rules, r.IsBuiltIn)
    (hdiscard : x.discardRule = none)
    (hmakes : ∀ previous token w rest, Makes p previous token w rest → token.isEnd = false)
    (h : s.Trails cause t) (hrun : x.Run flags t tokens) :
    ∃ noticed last u,
      x.Exhausts flags s (tokens ++ [.ofFailure cause noticed s.finalPosition]) last u := by
  induction hrun generalizing s with
  | @ended t t' token hnext hend =>
    rcases hx.next_of_trails hrules hdiscard h hnext with ⟨u, v, huv, hatEnd, hfinal, hs, -⟩ |
      ⟨token', u, v, -, ht, -, -, _, _, _, hmade⟩
    · obtain ⟨noticed, hfailure⟩ := huv.awaits.exists_failure hatEnd
      have hnil : u.upcoming.chars = [] := by simpa [Scanner.atEnd_eq] using hatEnd
      have hreport : (u.emitFailure ⟨noticed, .unreadable, some cause⟩).1 =
          .ofFailure cause noticed s.finalPosition := by
        rw [← hfinal, finalPosition, hnil, emitFailure, huv.isFresh.1, huv.isFresh.2]
        rfl
      rw [emit_of_failure huv.isFresh.1 hfailure] at hs
      obtain ⟨last, u', hu'⟩ := hx.exhausts_of_reported ⟨noticed, .unreadable, some cause⟩ hatEnd
      exact ⟨noticed, last, u', .token (hs.trans (by rw [← hreport])) rfl hu'⟩
    · obtain ⟨rfl, rfl⟩ := Prod.mk.inj (Except.ok.inj (ht.symm.trans hnext))
      exact absurd (hend.symm.trans (hmakes _ _ _ _ hmade)) Bool.noConfusion
  | @token t t' token tokens hnext hmore hrun ih =>
    rcases hx.next_of_trails hrules hdiscard h hnext with ⟨u, v, huv, hatEnd, -, -, ht⟩ |
      ⟨token', u, v, hs, ht, huv, hfinal, -⟩
    · have hatEnd' : v.atEnd = true := huv.alike.atEnd_eq.trans hatEnd
      obtain ⟨last, v', hemit, hlast, -⟩ :=
        emit_of_atEnd (huv.alike.isFresh huv.isFresh).1 huv.isClean.1 hatEnd'
      obtain ⟨rfl, -⟩ := Prod.mk.inj (Except.ok.inj (hnext.symm.trans (ht.trans hemit)))
      exact absurd (hmore.symm.trans hlast) Bool.noConfusion
    · obtain ⟨rfl, rfl⟩ := Prod.mk.inj (Except.ok.inj (ht.symm.trans hnext))
      obtain ⟨noticed, last, u', hu'⟩ := ih huv
      rw [hfinal] at hu'
      exact ⟨noticed, last, u', .token hs hmore hu'⟩

end Lexicon

end Lexing
