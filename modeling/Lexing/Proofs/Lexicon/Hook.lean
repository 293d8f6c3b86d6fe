import Lexing.Proofs.Lexicon.Failure
import Lexing.Proofs.Lexicon.Tiling

/-!
# The hook as a pass over the tokens

The hook of a lexicon sees each token when it is scanned, together with the kind of the token that
was returned before it. Rules never look at that kind. So the tokens of the lexicon are those of the
same rules without the hook, to which the hook is applied afterwards, from left to right.

## Main definitions

* `Lexicon.unhooked` : the same rules without a hook after tokens.
* `finishAll` : the hook as a pass over a list of tokens.
* `Lexicon.Finishes` : the tokens after the hook are those of the pass.

## Main results

* `Lexicon.read_setPreviousKind` : reading does not depend on the kind of the previous token.
* `Lexicon.Fits.finishes` : this is so from every fresh scanner.
-/

namespace Lexing

/-- The tokens of the list, walked from left to right with the kind of the last token that was
returned and is no comment. What becomes blank is dropped. -/
def finishAll (finish : String → Token → Token) : String → List Token → List Token
  | _, [] => []
  | previous, token :: tokens =>
    if (finish previous token).isBlank then finishAll finish previous tokens
    else finish previous token ::
      finishAll finish (kindAfter previous (finish previous token)) tokens

/-- The profile of the tokens before the hook. -/
def Profile.unhooked (p : Profile) : Profile :=
  { p with finish := fun _ token => token }

/-- The hook changes no blank token and no report of a failure, what it drops is not too long, and
no token is taken for the end of the text, neither before the hook nor after it. -/
structure Profile.IsMild (p : Profile) : Prop where
  isEnd : ∀ {token w rest}, p.scanned token w rest → token.isEnd = false
  isEnd_finish : ∀ {token w rest}, p.scanned token w rest →
    ∀ previous, (p.finish previous token).isEnd = false
  finish_of_isBlank : ∀ {token}, token.isBlank = true → ∀ previous, p.finish previous token = token
  finish_error : ∀ {token}, token.kind = Kind.error → ∀ previous, p.finish previous token = token
  length_lt : ∀ {token w rest}, p.scanned token w rest → token.isBlank = false →
    ∀ previous, (p.finish previous token).isBlank = true → w.length < UInt32.size

namespace Scanner

/-- The report of a failure that the scanner has noticed, if there is one. -/
def reports (s : Scanner) : List Token :=
  s.failure.toList.map fun report => (s.emitFailure report).1

/-! ### The kind of the previous token -/

variable (s : Scanner) (kind : String)

theorem whileIn_discard_setPreviousKind (k : CharClass) :
    (s.setPreviousKind kind).whileIn k .discard =
      (s.whileIn k .discard).setPreviousKind kind := by
  have hdiscard (s : Scanner) : (s.setPreviousKind kind).discard =
      s.discard.setPreviousKind kind := by
    rw [discard, discard, show (s.setPreviousKind kind).current? = s.current? from rfl]
    cases s.current? with
    | none => rfl
    | some c => exact congrArg restart (setPreviousKind_advance s kind c).symm
  have bounded (bound : List Char) (s : Scanner) :
      moveWhile k.contains .discard bound (s.setPreviousKind kind) =
        (moveWhile k.contains .discard bound s).setPreviousKind kind := by
    induction bound generalizing s with
    | nil => rfl
    | cons c bound ih =>
      rw [moveWhile, moveWhile, show (s.setPreviousKind kind).current? = s.current? from rfl]
      split
      · exact (congrArg _ (hdiscard s)).trans (ih s.discard)
      · rfl
  exact bounded _ s

theorem checkValue_setPreviousKind :
    (s.setPreviousKind kind).checkValue = s.checkValue.setPreviousKind kind := by
  rw [checkValue, checkValue]
  change (if (Utf8.decode? s.draft.value).isSome = true then _ else _) = _
  split <;> rfl

theorem renew_setPreviousKind : (s.setPreviousKind kind).renew = s.renew.setPreviousKind kind := by
  rw [renew, checkValue_setPreviousKind]
  rfl

end Scanner

namespace Lexicon

open Scanner

variable {x : Lexicon} {flags : Flags} {p : Profile} {s t : Scanner} {raw tokens : List Token}

/-- Reading does not depend on the kind of the previous token. -/
theorem read_setPreviousKind (hrules : ∀ r ∈ x.rules, r.IsBuiltIn) (kind : String)
    (h : x.read flags s = .ok t) :
    x.read flags (s.setPreviousKind kind) = .ok (t.setPreviousKind kind) := by
  have hrelated : Corresponds _ (x.read flags s) (x.read flags (s.setPreviousKind kind)) :=
    related_read (isCongruence_setPreviousKind kind) hrules rfl
  rw [h] at hrelated
  generalize x.read flags (s.setPreviousKind kind) = o at hrelated
  cases hrelated with
  | ok h => rw [h]

/-! ### At the end of the text -/

/-- Where nothing but discarded code points is left, a run has the report of a failure, if there is
one. -/
theorem Fits.run_of_atEnd (hx : x.Fits flags p) (hdiscard : x.discardRule = none) (hs : s.IsFresh)
    (hend : (s.whileIn x.discards .discard).atEnd = true) :
    x.Run flags s (s.whileIn x.discards .discard).reports := by
  have hnext : x.next flags s = _ := next_of_atEnd hdiscard hend
  have hfresh := (passes_whileIn_discard x.discards hs).isFresh
  generalize s.whileIn x.discards .discard = u at hend hnext hfresh ⊢
  rw [reports]
  cases hf : u.failure with
  | none =>
    obtain ⟨token, t, hemit, hisEnd, -⟩ := emit_of_atEnd hfresh.1 hf hend
    exact .ended (hnext.trans hemit) hisEnd
  | some report =>
    obtain ⟨last, t, hexhausts⟩ := hx.exhausts_of_reported report hend
    exact .token (hnext.trans (emit_of_failure hfresh.1 hf)) rfl hexhausts.run

/-! ### Without the hook -/

/-- The same rules without a hook after tokens. -/
def unhooked (x : Lexicon) : Lexicon :=
  { x with afterToken := fun _ t s => .ok (t, s) }

theorem Fits.unhooked (hx : x.Fits flags p) : x.unhooked.Fits flags p.unhooked :=
  { hx with
    afterToken := fun _ _ => rfl
    finish := fun _ _ _ => ⟨rfl, rfl⟩ }

theorem finishAll_reports (hp : p.IsMild) (previous : String) (s : Scanner) :
    finishAll p.finish previous s.reports = s.reports := by
  rw [reports]
  cases s.failure with
  | none => rfl
  | some report =>
    have hfinish : p.finish previous (s.emitFailure report).1 = (s.emitFailure report).1 :=
      hp.finish_error rfl previous
    simp only [Option.toList_some, List.map_cons, List.map_nil, finishAll, hfinish]
    rfl

/-- A pass from a scanner that has recorded another kind. -/
theorem Fits.next_setPreviousKind (hx : x.Fits flags p) (hrules : ∀ r ∈ x.rules, r.IsBuiltIn)
    (hdiscard : x.discardRule = none) (hs : s.IsFresh)
    (hend : (s.whileIn x.discards .discard).atEnd = false)
    (hread : x.read flags (s.whileIn x.discards .discard) = .ok t) (previous : String) :
    x.next flags (s.setPreviousKind previous) =
      if (p.finish previous t.checkValue.assembled).isBlank then
        ifMoved (s.whileIn x.discards .discard) t.renew
          (x.next flags (t.renew.setPreviousKind previous))
      else .ok (p.finish previous t.checkValue.assembled, t.renew.setPreviousKind
        (kindAfter previous (p.finish previous t.checkValue.assembled))) := by
  have hgap := whileIn_discard_setPreviousKind s previous x.discards
  have hnext := hx.next_of_read hdiscard (s := s.setPreviousKind previous) hs (hgap ▸ hend)
    (hgap ▸ read_setPreviousKind hrules previous hread)
  rwa [checkValue_setPreviousKind, renew_setPreviousKind, accept_eq_kindAfter, hgap] at hnext

/-- From `s`, after a token of the kind `previous`, the tokens of the lexicon are those of the same
rules without the hook, to which the hook is applied from left to right. -/
def Finishes (x : Lexicon) (flags : Flags) (p : Profile) (s : Scanner) (previous : String) : Prop :=
  ∀ tokens, x.Run flags (s.setPreviousKind previous) tokens ↔
    ∃ raw, x.unhooked.Run flags s raw ∧ tokens = finishAll p.finish previous raw

theorem Fits.finishes_of_atEnd (hx : x.Fits flags p) (hdiscard : x.discardRule = none)
    (hp : p.IsMild) (hs : s.IsFresh) (hend : (s.whileIn x.discards .discard).atEnd = true)
    (previous : String) : x.Finishes flags p s previous := by
  intro tokens
  have hraw : x.unhooked.Run flags s (s.whileIn x.discards .discard).reports :=
    hx.unhooked.run_of_atEnd hdiscard hs hend
  have hgap := whileIn_discard_setPreviousKind s previous x.discards
  have hrun := hx.run_of_atEnd hdiscard (s := s.setPreviousKind previous) hs (hgap ▸ hend)
  rw [hgap] at hrun
  have hreports := finishAll_reports hp previous (s.whileIn x.discards .discard)
  refine ⟨fun h => ⟨_, hraw, (h.unique hrun).trans hreports.symm⟩, ?_⟩
  rintro ⟨raw, hraw', rfl⟩
  rw [hraw'.unique hraw, hreports]
  exact hrun

/-- A call that gives a token without the hook: with the hook it goes on if the token is dropped,
and gives what has become of the token otherwise. -/
theorem finishes_of_next {token : Token} {previous : String}
    (hnext : x.unhooked.next flags s = .ok (token, t)) (hmore : token.isEnd = false)
    (hmore' : (p.finish previous token).isEnd = false)
    (hnext' : x.next flags (s.setPreviousKind previous) =
      if (p.finish previous token).isBlank then x.next flags (t.setPreviousKind previous)
      else .ok (p.finish previous token,
        t.setPreviousKind (kindAfter previous (p.finish previous token))))
    (hrest : ∀ kind, x.Finishes flags p t kind) : x.Finishes flags p s previous := by
  intro tokens
  simp only [run_iff_of_next hnext hmore]
  by_cases hdropped : (p.finish previous token).isBlank = true
  · rw [if_pos hdropped] at hnext'
    rw [run_congr hnext', hrest]
    constructor
    · rintro ⟨raw, hrun, rfl⟩
      exact ⟨_, ⟨raw, rfl, hrun⟩, by rw [finishAll, if_pos hdropped]⟩
    · rintro ⟨_, ⟨raw, rfl, hrun⟩, rfl⟩
      exact ⟨raw, hrun, by rw [finishAll, if_pos hdropped]⟩
  · rw [if_neg hdropped] at hnext'
    rw [run_iff_of_next hnext' hmore']
    constructor
    · rintro ⟨rest, rfl, hrun⟩
      obtain ⟨raw, hraw, rfl⟩ := (hrest _ _).mp hrun
      exact ⟨_, ⟨raw, rfl, hraw⟩, by rw [finishAll, if_neg hdropped]⟩
    · rintro ⟨_, ⟨raw, rfl, hraw⟩, rfl⟩
      exact ⟨_, by rw [finishAll, if_neg hdropped], (hrest _ _).mpr ⟨raw, hraw, rfl⟩⟩

/-- The tokens of a lexicon with a hook are those of the same rules without it, to which the hook is
applied from left to right. -/
theorem Fits.finishes (hx : x.Fits flags p) (hrules : ∀ r ∈ x.rules, r.IsBuiltIn)
    (hdiscard : x.discardRule = none) (hp : p.IsMild) (hs : s.IsFresh) (previous : String) :
    x.Finishes flags p s previous := by
  generalize hn : s.upcoming.chars.length = n
  induction n using Nat.strongRecOn generalizing s previous with
  | ind n ih =>
    have hgap := passes_whileIn_discard x.discards hs
    by_cases hend : (s.whileIn x.discards .discard).atEnd = true
    · exact hx.finishes_of_atEnd hdiscard hp hs hend previous
    · rw [Bool.not_eq_true] at hend
      obtain ⟨w, t, hread, hw, hconsumes, hmade⟩ := hx.exists_read hgap.isFresh hend
      have hpass := (hconsumes.passes_renew hgap.isFresh hw).2
      have hlt : t.renew.upcoming.chars.length < n := hn ▸ hgap.length_lt hpass hw
      have hnext : x.unhooked.next flags s =
          if t.checkValue.assembled.isBlank then
            ifMoved (s.whileIn x.discards .discard) t.renew (x.unhooked.next flags t.renew)
          else .ok (accept t.checkValue.assembled t.renew) :=
        hx.unhooked.next_of_read hdiscard hs hend hread
      have hnext' := hx.next_setPreviousKind hrules hdiscard hs hend hread previous
      cases hblank : t.checkValue.assembled.isBlank with
      | true =>
        -- Neither call ends with this pass, unless both do because the position has not moved.
        rw [hp.finish_of_isBlank hblank, if_pos hblank] at hnext'
        rw [if_pos hblank] at hnext
        intro tokens
        by_cases hposition : t.renew.position = (s.whileIn x.discards .discard).position
        · rw [ifMoved_of_eq hposition] at hnext hnext'
          refine iff_of_false (not_run_of_next hnext') ?_
          rintro ⟨raw, hraw, -⟩
          exact not_run_of_next hnext hraw
        · rw [ifMoved_of_ne hposition] at hnext hnext'
          simp only [run_congr hnext, run_congr hnext']
          exact ih _ hlt hpass.isFresh previous rfl tokens
      | false =>
        rw [hblank, if_neg Bool.false_ne_true, accept_eq_kindAfter] at hnext
        have hfresh (kind : String) : (t.renew.setPreviousKind kind).IsFresh := hpass.isFresh
        refine finishes_of_next hnext (hp.isEnd hmade) (hp.isEnd_finish hmade previous) ?_
          fun kind => ih _ hlt (hfresh _) kind rfl
        rw [hnext']
        split
        · rename_i hdropped
          exact ifMoved_of_ne (hpass.position_ne hw (hp.length_lt hmade hblank previous hdropped))
        · rfl

end Lexicon

end Lexing
