import Lexing.Proofs.Scanner.Evolution
import Lexing.Proofs.Scanner.Revision
import Lexing.Proofs.Scanner.Rewinding
import Lexing.Proofs.Scanner.Stall
import Lexing.TokenStream

/-!
# Scans that do not stall

A pass over the rules and hooks of a lexicon assembles a draft and emits it. If every pass moves on
by the steps of a rule, the draft holds the text that was passed, so that no emission is counted as
a stall. This covers functions of the user, as long as they neither discard nor emit. A pass that
moves on by discarding leaves the draft empty, and a scan that is made of such passes fails although
it gets ahead.

## Main definitions

* `Unstalled` : a computation that does not fail for a stall.
* `Lexicon.assemble` : a pass up to the emission of its token.
* `Lexicon.Advances` : every pass moves on by the steps of a rule.

## Main results

* `Lexicon.Advances.unstalled_next` : the next token.
* `Lexicon.Advances.unstalled_tokens` : all tokens.
* `Lexicon.stall_stands_still` : what comes before a stall.
-/

namespace Lexing

open Scanner

/-- The computation gives a result with the property `P`, or fails for another reason than a
stall. -/
def Unstalled {α : Type} (P : α → Prop) : Except Fault α → Prop
  | .ok a => P a
  | .error fault => ∀ place count, fault ≠ .stalled place count

namespace Unstalled

variable {α β : Type} {P : α → Prop} {Q : β → Prop} {x : Except Fault α}

theorem bind {f : α → Except Fault β} (h : Unstalled P x) (hf : ∀ a, P a → Unstalled Q (f a)) :
    Unstalled Q (x >>= f) := by
  cases x with
  | error fault => exact h
  | ok a => exact hf a h

theorem ne_error (h : Unstalled P x) (place : Position) (count : Nat) :
    x ≠ .error (.stalled place count) := by
  rintro rfl
  exact h place count rfl

end Unstalled

variable {flags : Flags} {labels : String → Prop} {x : Lexicon} {s t : Scanner}

/-! ### Emissions -/

/-- The steps of a rule keep the beginning of the draft, and the position in place. -/
theorem Scanner.Evolves.isPlaced (h : s.Evolves labels t) (hs : s.IsPlaced) :
    t.start = s.start ∧ t.IsPlaced := by
  induction h with
  | refl => exact ⟨rfl, hs⟩
  | assembles _ hu ih => exact ⟨hu.consumes.start.trans ih.1, hu.consumes.isPlaced ih.2⟩
  | rewind _ ih => exact ⟨ih.1, rfl⟩

/-- A draft that has moved on by the steps of a rule is emitted. -/
theorem Scanner.Evolves.unstalled_emit (h : s.Evolves labels t) (hs : s.IsFresh)
    (hne : t.position ≠ s.position) : Unstalled (fun r => r.2.IsFresh) t.emit := by
  obtain ⟨hstart, hplaced⟩ := h.isPlaced hs.isPlaced
  have hliteral : t.draft.literal ≠ [] := by
    intro hnil
    rw [IsPlaced, hnil, hstart, hs.2] at hplaced
    exact hne hplaced
  have hemit := emit_of_literal_ne_nil hliteral
  have hfresh := (frame_emit hemit).2.2.2.2
  rw [hemit]
  exact hfresh

/-- At the end of the text an empty draft is emitted. -/
theorem Scanner.IsFresh.unstalled_emit (hs : s.IsFresh) (hend : s.atEnd = true) :
    Unstalled (fun r => r.2.IsFresh) s.emit := by
  obtain ⟨r, hr⟩ : ∃ r, s.emit = .ok r := by
    cases hf : s.failure with
    | some report => exact ⟨_, emit_of_failure hs.1 hf⟩
    | none => exact ⟨_, emit_eq_of_atEnd hs.1 hf hend⟩
  have hfresh := (frame_emit hr).2.2.2.2
  rw [hr]
  exact hfresh

/-! ### Passes -/

namespace Lexicon

/-- Assembles the draft of one token: what is done before the rules, what the first rule that
matches consumes, and what is done if there is none. -/
def assemble (x : Lexicon) (flags : Flags) (s : Scanner) : Except Fault Scanner := do
  let s ← x.beforeToken flags s
  let (matched, s) ← Rule.evalFirst flags x.rules s
  if matched || s.atEnd then pure s else x.noMatch flags s

theorem scanToken_eq_assemble (x : Lexicon) (flags : Flags) (s : Scanner) :
    x.scanToken flags s = x.assemble flags s >>= fun t => t.emit >>= fun r =>
      x.afterToken flags r.1 r.2 := by
  simp only [scanToken, assemble, bind, Except.bind]
  rcases x.beforeToken flags s with fault | u
  · rfl
  · dsimp only
    rcases Rule.evalFirst flags x.rules u with fault | ⟨matched, v⟩
    · rfl
    · dsimp only
      split <;> rfl

/-- Every pass moves on by the steps of a rule, and what is done to the token leaves the draft
empty. None of this fails for a stall. -/
structure Advances (x : Lexicon) (flags : Flags) : Prop where
  assemble : ∀ s, s.IsFresh → s.atEnd = false →
    Unstalled (fun t => s.Evolves (fun _ => True) t ∧ t.position ≠ s.position)
      (x.assemble flags s)
  discardRule : ∀ r ∈ x.discardRule, ∀ s, s.IsFresh →
    Unstalled (fun o => if o.1 then s.Evolves (fun _ => True) o.2 ∧ o.2.position ≠ s.position
      else o.2.IsFresh) (r.eval flags s)
  afterToken : ∀ token s, s.IsFresh → Unstalled (fun r => r.2.IsFresh)
    (x.afterToken flags token s)

namespace Advances

theorem unstalled_skipDiscardsWithin (hx : x.Advances flags) (bound : Nat) (hs : s.IsFresh) :
    Unstalled (fun r => r.2.IsFresh) (x.skipDiscardsWithin flags bound s) := by
  induction bound generalizing s with
  | zero => exact fun _ _ => nofun
  | succ bound ih =>
    have hfresh := (passes_whileIn_discard x.discards hs).isFresh
    rw [skipDiscardsWithin]
    generalize s.whileIn x.discards .discard = u at hfresh ⊢
    split
    · exact hfresh
    · rename_i rule hrule
      refine (hx.discardRule rule hrule u hfresh).bind ?_
      rintro ⟨matched, t⟩ ht
      cases matched with
      | false => exact ht
      | true =>
        refine (ht.1.unstalled_emit hfresh ht.2).bind ?_
        rintro ⟨token, v⟩ hv
        dsimp only
        split
        · exact hv
        · split
          · exact fun _ _ => nofun
          · exact ih hv

theorem unstalled_scanToken (hx : x.Advances flags) (hs : s.IsFresh) (hend : s.atEnd = false) :
    Unstalled (fun r => r.2.IsFresh) (x.scanToken flags s) := by
  rw [scanToken_eq_assemble]
  refine (hx.assemble s hs hend).bind fun t ht => ?_
  refine (ht.1.unstalled_emit hs ht.2).bind ?_
  rintro ⟨token, u⟩ hu
  exact hx.afterToken token u hu

theorem isFresh_accept (token : Token) (hs : s.IsFresh) : (accept token s).2.IsFresh := by
  rw [accept]
  split
  · exact hs
  · exact hs

theorem unstalled_nextWithin (hx : x.Advances flags) (bound : Nat) (hs : s.IsFresh) :
    Unstalled (fun r => r.2.IsFresh) (x.nextWithin flags bound s) := by
  induction bound generalizing s with
  | zero => exact fun _ _ => nofun
  | succ bound ih =>
    rw [nextWithin]
    refine (hx.unstalled_skipDiscardsWithin _ hs).bind ?_
    rintro ⟨found, t⟩ ht
    cases found with
    | some token => exact isFresh_accept token ht
    | none =>
      dsimp only
      split
      · rename_i hend
        exact ht.unstalled_emit hend
      · rename_i hend
        refine (hx.unstalled_scanToken ht (Bool.eq_false_iff.mpr hend)).bind ?_
        rintro ⟨token, u⟩ hu
        dsimp only
        split
        · exact isFresh_accept token hu
        · split
          · exact fun _ _ => nofun
          · exact ih hu

/-- The next token. -/
theorem unstalled_next (hx : x.Advances flags) (hs : s.IsFresh) :
    Unstalled (fun r => r.2.IsFresh) (x.next flags s) :=
  hx.unstalled_nextWithin _ hs

theorem unstalled_tokenAfter (hx : x.Advances flags) (token : Token) (hs : s.IsFresh) :
    Unstalled (fun r => r.2.IsFresh) (TokenStream.tokenAfter x flags token s) := by
  rw [TokenStream.tokenAfter]
  split
  · exact hs
  · exact hx.unstalled_next hs

/-- A stream of the lexicon with an empty draft. -/
def Shows (x : Lexicon) (ts : TokenStream) : Prop :=
  ts.lexicon = x ∧ ts.scanner.IsFresh

theorem unstalled_ofScanner (hx : x.Advances flags) (hs : s.IsFresh) :
    Unstalled (Shows x) (TokenStream.ofScanner x flags s) := by
  refine (hx.unstalled_next hs).bind ?_
  rintro ⟨current, t⟩ ht
  refine (hx.unstalled_tokenAfter current ht).bind ?_
  rintro ⟨following, u⟩ hu
  exact ⟨rfl, hu⟩

theorem unstalled_takeOnto (hx : x.Advances flags) (n : Nat) (taken : Array Token)
    {ts : TokenStream} (hts : Shows x ts) :
    Unstalled (fun _ => True) (TokenStream.takeOnto flags n taken ts) := by
  induction n generalizing taken ts with
  | zero => exact trivial
  | succ n ih =>
    rw [TokenStream.takeOnto, TokenStream.next?]
    split
    · obtain ⟨rfl, hfresh⟩ := hts
      refine Unstalled.bind (P := fun r => Shows ts.lexicon r.2) ?_ ?_
      · refine Unstalled.bind (P := fun r => Shows ts.lexicon r.2) ?_ ?_
        · refine (hx.unstalled_tokenAfter ts.following hfresh).bind ?_
          rintro ⟨after, u⟩ hu
          exact ⟨rfl, hu⟩
        · rintro ⟨token, ts'⟩ hts'
          exact hts'
      · rintro ⟨found, ts'⟩ hts'
        cases found with
        | none => exact trivial
        | some token => exact ih _ hts'
    · exact trivial

/-- All tokens. -/
theorem unstalled_tokens (hx : x.Advances flags) (hs : s.IsFresh) :
    Unstalled (fun _ => True) (x.tokens flags s) := by
  refine (hx.unstalled_ofScanner hs).bind fun ts hts => ?_
  refine Unstalled.bind (P := fun _ => True) ?_ fun _ _ => trivial
  rw [TokenStream.all, TokenStream.allWithin, TokenStream.take]
  refine (hx.unstalled_takeOnto _ _ hts).bind ?_
  rintro ⟨tokens, ts'⟩ -
  dsimp only
  split
  · exact fun _ _ => nofun
  · exact trivial

end Advances

/-! ### Stalls -/

/-- Let a sequence of operations on a scanner be followed by an emission that fails. Then the fault
is a stall, and as many emissions as are allowed came before it, all of them with empty literals.
They stand where the last one stands if, and only if, nothing was released from the first of them
on, unless it is so much text that positions come round to where they were. Nothing was released if
nothing was discarded. A lexicon whose passes all move on by the steps of a rule, which do not
discard, never stalls. -/
theorem stall_stands_still (name : String) (input : CharStream) :
    (∀ (os : List Operation) (replies : List Reply) (s : Scanner) (fault : Fault),
      (ofStream name input).performAll os = .ok (replies, s) → s.emit = .error fault →
      (∃ count, fault = .stalled s.position count) ∧ s.draft.literal = [] ∧
      ∃ earlier later u, os = earlier ++ .emit :: later ∧
        (∃ answers, (ofStream name input).performAll earlier = .ok (answers, u)) ∧
        (u.emissions (.emit :: later)).length = maxStalls ∧
        (∀ v ∈ u.emissions (.emit :: later), v.draft.literal = []) ∧
        ((u.released (.emit :: later)).length < UInt32.size →
          ((∀ v ∈ u.emissions (.emit :: later), v.position = s.position) ↔
            u.released (.emit :: later) = [])) ∧
        (.move .discard ∉ later → u.released (.emit :: later) = [])) ∧
    ∀ (x : Lexicon) (flags : Flags), x.Advances flags →
      ∀ place count, x.tokens flags (ofStream name input) ≠ .error (.stalled place count) := by
  constructor
  · intro os replies s fault h hfault
    obtain ⟨hliteral, -, hstalled⟩ := stalls_of_emit_error hfault
    obtain ⟨earlier, later, u, hos, hearlier, -, hlength, hsilent, hplaces, hnone⟩ :=
      exists_of_emit_error name input ⟨replies, h⟩ hfault
    exact ⟨⟨_, hstalled⟩, hliteral, earlier, later, u, hos, hearlier, hlength, hsilent, hplaces,
      hnone⟩
  · intro x flags hx
    exact (hx.unstalled_tokens (isFresh_ofStream name input)).ne_error

/-- A source of twenty letters. -/
def letterSample : ByteSource :=
  { reads := [.bytes (List.replicate 20 0x61)] }

/-- As many emissions of a token with a kind as are allowed, each followed by the operations given.
One more token gets its kind and is not emitted. -/
def emitEach (between : List Operation) : List Operation :=
  (List.replicate maxStalls (.setKind "x" :: .emit :: between)).flatten ++ [.setKind "x"]

/-- A lexicon with a rule that makes a token of each code point. -/
def letters : Lexicon :=
  { rules := [.custom fun _ s => .ok (true, s.keep)] }

theorem advances_letters (flags : Flags) : letters.Advances flags where
  assemble s hs hend := by
    obtain ⟨c, hc⟩ : ∃ c, s.current? = some c := by
      simpa [atEnd, Option.isSome_iff_exists] using hend
    have hkeep : Assembles (fun _ => True) s [c] s.keep := assembles_keep hc
    refine ⟨hkeep.evolves, ?_⟩
    rw [hkeep.consumes.position]
    exact s.position.advanceAll_ne (List.cons_ne_nil c []) (by decide : 1 < UInt32.size)
  discardRule := by simp [letters]
  afterToken _ _ hs := hs

/-- Where nothing is consumed, all emissions stand in one place, and the last one fails. -/
theorem stall_stands_still_letterSample :
    (∃ replies s fault, (ofStream "f" (.ofSource letterSample)).performAll (emitEach []) =
        .ok (replies, s) ∧ s.emit = .error fault ∧
      ∃ (later : List Operation) (u : Scanner),
        (∀ v ∈ u.emissions (.emit :: later), v.position = s.position) ∧
        (u.emissions (.emit :: later)).length = maxStalls) ∧
    letters.Advances .off ∧
    letters.tokens .off (ofStream "f" (.ofSource letterSample)) ≠
      .error (.stalled (.after "f" (List.replicate 16 'a')) 17) := by
  obtain ⟨hstall, hscan⟩ := stall_stands_still "f" (.ofSource letterSample)
  refine ⟨?_, advances_letters .off, hscan letters .off (advances_letters .off) _ _⟩
  obtain ⟨replies, s, fault, h, hfault⟩ : ∃ replies s fault,
      (ofStream "f" (.ofSource letterSample)).performAll (emitEach []) = .ok (replies, s) ∧
        s.emit = .error fault := ⟨_, _, _, rfl, rfl⟩
  obtain ⟨-, -, earlier, later, u, hos, -, hlength, -, hplaces, hnone⟩ :=
    hstall _ _ _ _ h hfault
  have hdiscard : Operation.move .discard ∉ emitEach [] := by
    simp [emitEach, maxStalls, List.replicate]
  have hlater : Operation.move .discard ∉ later := by
    rw [hos] at hdiscard
    simp only [List.mem_append, List.mem_cons, not_or] at hdiscard
    exact hdiscard.2.2
  have hreleased := hnone hlater
  have hshort : (u.released (.emit :: later)).length < UInt32.size := by
    rw [hreleased]
    decide
  exact ⟨replies, s, fault, h, hfault, later, u, (hplaces hshort).mpr hreleased, hlength⟩

/-- A lexicon with a rule that discards each code point and makes an empty token of it. -/
def discarder : Lexicon :=
  { rules := [.custom fun _ s => .ok (true, s.discard.setKind "x")] }

/-- Discarding a code point after each emission moves the scanner on, and yet the emission after the
sixteenth code point fails. So does a scan with a lexicon whose every pass moves on by
discarding. -/
theorem discarding_counts_as_stalling :
    (∃ replies s, (ofStream "f" (.ofSource letterSample)).performAll
        (emitEach [.move .discard]) = .ok (replies, s) ∧
      s.position = .after "f" (List.replicate 16 'a') ∧
      ((ofStream "f" (.ofSource letterSample)).emissions (emitEach [.move .discard])).map position =
        (List.range 16).map (fun n => .after "f" (List.replicate n 'a')) ∧
      s.emit = .error (.stalled s.position 17)) ∧
    (∀ s t, s.IsFresh → s.atEnd = false → discarder.assemble .off s = .ok t →
      t.position ≠ s.position) ∧
    discarder.tokens .off (ofStream "f" (.ofSource letterSample)) =
      .error (.stalled (.after "f" (List.replicate 17 'a')) 17) := by
  refine ⟨⟨_, _, rfl, rfl, rfl, rfl⟩, ?_, by decide +kernel⟩
  intro s t _ hend ht
  obtain ⟨c, hc⟩ : ∃ c, s.current? = some c := by
    simpa [atEnd, Option.isSome_iff_exists] using hend
  obtain rfl := Except.ok.inj ht
  exact (passes_discard hc).position_ne (List.cons_ne_nil c []) (by decide : 1 < UInt32.size)

end Lexicon

end Lexing
