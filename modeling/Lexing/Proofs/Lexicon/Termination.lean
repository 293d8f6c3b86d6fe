import Lexing.Proofs.Language.Extent
import Lexing.Proofs.Lexicon.Run

/-!
# Scans end

A lexicon without functions of the user scans every text to its end: no loop goes on for ever, and
none of the faults that guard the loops is met, unless the text is so long that dropping a part of
it can bring the position round to where it was. This needs no knowledge of the tokens that the
rules make, only that a rule that matches has consumed text and that a rule that does not match has
given everything back.

## Main definitions

* `Lexicon.IsPlain` : the rules are plain and there are no hooks.

## Main results

* `Lexicon.IsPlain.fits` : plain lexicons fit a profile.
* `Lexicon.Fits.exists_tokens_ofSource` : a finite list of tokens, if no piece of the text is too
  long.
* `Lexicon.Fits.fault_of_tokens` : the faults that a scan can come to.
* `Lexicon.scan_given_up` : a comment that is too long.
-/

namespace Lexing

open Scanner

/-- The profile of a lexicon without hooks of whose tokens nothing is known. -/
def Profile.unknown : Profile where
  scanned := fun _ _ _ => True
  between := fun _ _ _ => True
  finish := fun _ token => token

namespace Lexicon

/-- The lexicon has plain rules and no hooks. -/
structure IsPlain (x : Lexicon) : Prop where
  rules : ∀ r ∈ x.rules, r.IsPlain
  discardRule : ∀ r ∈ x.discardRule, r.IsPlain
  beforeToken : x.beforeToken = fun _ s => .ok s
  afterToken : x.afterToken = fun _ token s => .ok (token, s)
  noMatch : x.noMatch = fun _ s => .ok s.keepUnexpected

variable {x : Lexicon} {flags : Flags}

theorem IsPlain.fits (hx : x.IsPlain) : x.Fits flags .unknown where
  rules r hr := (hx.rules r hr).isSound
  discardRule r hr := (hx.discardRule r hr).isSound
  unexpected _ _ _ _ := trivial
  beforeToken _ := by rw [hx.beforeToken]
  afterToken _ _ := by rw [hx.afterToken]; rfl
  noMatch _ := by rw [hx.noMatch]
  finish _ _ _ := ⟨rfl, rfl⟩

/-- Lexicons that fit a profile have at most one token per code point, and one for a failure. -/
theorem Fits.exists_tokens_ofSource {p : Profile} (hx : x.Fits flags p)
    (name : String) {source : ByteSource} (hvisible : x.DropsVisibly p source.text) :
    ∃ tokens, x.tokens flags (ofSource name source) = .ok tokens ∧
      tokens.length ≤ source.text.length + 1 := by
  have hs := isFresh_ofSource name source
  rw [← upcoming_ofSource name] at hvisible
  obtain ⟨tokens, htokens, hrun⟩ := hx.exists_tokens hs hvisible
  refine ⟨tokens, htokens, Nat.le_trans (hx.length_le_of_run hs hrun) ?_⟩
  rw [effort, upcoming_ofSource]
  split <;> omega

/-- A scan that is given up has dropped a piece of the text that leads back to where it began, and
so is as long as the range of the numbers of a position. -/
theorem Fits.fault_of_tokens {p : Profile} (hx : x.Fits flags p) {name : String}
    {source : ByteSource} {fault : Fault}
    (h : x.tokens flags (ofSource name source) = .error fault) :
    ∃ before piece rest place, source.text = before ++ (piece ++ rest) ∧
      UInt32.size ≤ piece.length ∧ place = .after name before ∧ place.advanceAll piece = place ∧
      (fault = .noProgress place ∨ fault = .discardNoProgress place) := by
  have hs := isFresh_ofSource name source
  rcases hx.run_or_breaks hs with ⟨tokens, hrun⟩ | ⟨tokens, fault', hbreaks, hround⟩
  · cases h.symm.trans (hx.tokens_eq_of_run hs hrun)
  · obtain rfl := Except.error.inj (h.symm.trans (hx.tokens_eq_of_breaks hs hbreaks))
    obtain @⟨_, before, piece, rest, htext, hne, -, hround, hfault⟩ := hround
    rw [upcoming_ofSource] at htext
    rw [position_ofSource, Position.advanceAll_start] at hround hfault
    refine ⟨before, piece, rest, _, htext, ?_, rfl, hround, hfault⟩
    by_contra hshort
    exact Position.advanceAll_ne _ hne (Nat.lt_of_not_le hshort) hround

/-- A lexicon with nested groups and a rule between tokens. A lone sign makes its numbers give text
back, and its octal escapes can match without consuming. -/
def nestedSample : Lexicon where
  rules := [
    .group [
      .group [.number Numeral.integer.signed (some (.literal { words := .ofWords ["0o"] }))
        [.literal { words := .ofWords ["i", "n"] }]],
      .quotation (Quotation.marked '\x22') [.octalEscape ⟨true⟩, .hexEscape .two]],
    .span { members := .decimalDigit, dropped := true }]
  discards := .single ' '
  discardRule := some (.comment (.toLineEnd { words := .ofWords ["#"] }))

theorem isPlain_nestedSample : nestedSample.IsPlain := by
  have hnumber (f : Numeral) (leads suffixes : List String) :
      (Rule.number f (some (.literal { words := .ofWords leads }))
        [.literal { words := .ofWords suffixes }]).IsPlain :=
    .number f (by simp [Rule.IsLiteral]) (by simp [Rule.IsLiteral])
  refine ⟨?_, fun r hr => ?_, rfl, rfl, rfl⟩
  · simp only [nestedSample, List.forall_mem_cons]
    refine ⟨.group ?_, .span _, by simp⟩
    simp only [List.forall_mem_cons]
    exact ⟨.group (by simpa using hnumber ..), .quotation _ (by simp [Rule.IsEscape]), by simp⟩
  · obtain rfl : _ = r := Option.some.inj hr
    exact .comment _

end Lexicon

end Lexing
