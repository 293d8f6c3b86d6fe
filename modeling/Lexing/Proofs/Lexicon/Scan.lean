import Lexing.Lexicon
import Lexing.Proofs.Rule.Basic
import Lexing.Proofs.Scanner.Passage

/-!
# How a lexicon scans the next token

The text before a token is a gap: pieces that are dropped, which are discarded code points and blank
tokens. What pieces a lexicon drops and what tokens it makes is collected in a profile, which is a
parameter here: knowing nothing of the tokens is enough to see that a scan ends, and knowing more
says what the gaps of a language are.

A lexicon fits its profile if its rules are sound and its hooks do no more than change tokens. Every
call for the next token then passes over a gap and a token, or finds the end of the text.

Whether a pass has made progress is told from the position. Its numbers have 32 bits, so that a
piece of the text that is dropped can be so long that the position comes round to where it was. Such
a pass is a fault though it consumed text. There is no other fault.

## Main definitions

* `Gap` : a text made of pieces.
* `Profile`, `Lexicon.Fits` : what is known of the tokens of a lexicon.
* `Lexicon.Step` : what one call for the next token does.
* `Lexicon.DropsVisibly` : no piece that is dropped is too long.
* `Lexicon.ComesRound` : a fault because of a piece that is too long.

## Main results

* `Lexicon.Fits.skipDiscards_cases`, `Lexicon.Fits.exists_scanToken` : the parts of a call.
* `Lexicon.Fits.next_cases` : a call gives a token, or a piece of the text is too long.
* `Lexicon.Fits.exists_next` : a call gives a token, if no piece of the text is too long.
-/

namespace Lexing

open Scanner

/-! ### Gaps -/

/-- The text `g` before `rest` is made of pieces that may be dropped. Whether a piece may be dropped
can depend on what comes after it. -/
inductive Gap (drops : List Char → List Char → Prop) : List Char → List Char → Prop
  | nil {rest} : Gap drops [] rest
  | cons {p g rest} (hp : drops p (g ++ rest)) (hg : Gap drops g rest) : Gap drops (p ++ g) rest

namespace Gap

variable {drops drops' : List Char → List Char → Prop} {g h p rest : List Char}

theorem single (hp : drops p rest) : Gap drops p rest := by
  have hcons : Gap drops (p ++ []) rest := .cons hp .nil
  rwa [List.append_nil] at hcons

theorem append (hg : Gap drops g (h ++ rest)) (hh : Gap drops h rest) :
    Gap drops (g ++ h) rest := by
  generalize htail : h ++ rest = tail at hg
  induction hg with
  | nil => exact hh
  | cons hp hg ih =>
    subst htail
    rw [List.append_assoc]
    exact .cons (by rwa [List.append_assoc]) (ih rfl)

theorem mono (hg : Gap drops g rest) (hd : ∀ p rest, drops p rest → drops' p rest) :
    Gap drops' g rest := by
  induction hg with
  | nil => exact .nil
  | cons hp _ ih => exact .cons (hd _ _ hp) ih

/-- A text is a gap if each code point may be dropped, whatever comes after it. -/
theorem of_forall (h : ∀ c ∈ g, ∀ rest, drops [c] rest) : Gap drops g rest := by
  induction g with
  | nil => exact .nil
  | cons c cs ih =>
    exact .cons (h c List.mem_cons_self _) (ih fun d hd => h d (List.mem_cons_of_mem c hd))

end Gap

/-! ### Profiles -/

/-- What is known of the tokens of a lexicon. A token comes with its text and the text after it. -/
structure Profile where
  /-- The tokens that rules make. -/
  scanned : Token → List Char → List Char → Prop
  /-- The tokens that the rule between tokens makes. -/
  between : Token → List Char → List Char → Prop
  /-- What is made of a token that a rule has made, given the kind of the previous one. -/
  finish : String → Token → Token

/-- The token that a scanner emits has the property `P` together with its text and the text after
it. -/
def Emits (P : Token → List Char → List Char → Prop) (w : List Char) (t : Scanner) : Prop :=
  P t.checkValue.assembled w t.upcoming.chars

namespace Lexicon

variable {x : Lexicon} {flags : Flags} {p : Profile} {s t : Scanner} {token : Token}

/-- The rules of the lexicon make tokens as the profile says, and its hooks do no more than change
tokens. -/
structure Fits (x : Lexicon) (flags : Flags) (p : Profile) : Prop where
  rules : ∀ r ∈ x.rules, r.IsSound flags (Emits p.scanned)
  discardRule : ∀ r ∈ x.discardRule, r.IsSound flags (Emits p.between)
  unexpected : ∀ (s : Scanner) (c : Char), s.IsFresh → s.current? = some c →
    Emits p.scanned [c] s.keepUnexpected
  beforeToken : ∀ s, x.beforeToken flags s = .ok s
  afterToken : ∀ token s, x.afterToken flags token s = .ok (p.finish s.previousKind token, s)
  noMatch : ∀ s, x.noMatch flags s = .ok s.keepUnexpected
  finish : ∀ previous token, (p.finish previous token).isBlank = false →
    (p.finish previous token).literal = token.literal ∧
      (p.finish previous token).position = token.position

/-- The pieces that the lexicon drops after a token of the given kind. -/
inductive Drops (x : Lexicon) (p : Profile) (previous : String) : List Char → List Char → Prop
  | discard {c rest} (h : x.discards.contains c = true) : Drops x p previous [c] rest
  | between {token w rest} (h : p.between token w rest) (hblank : token.isBlank) :
      Drops x p previous w rest
  | scanned {token w rest} (h : p.scanned token w rest)
      (hblank : (p.finish previous token).isBlank) : Drops x p previous w rest

/-- The tokens that the lexicon makes of the text `w` after a token of the given kind. -/
inductive Makes (p : Profile) (previous : String) : Token → List Char → List Char → Prop
  | between {token w rest} (h : p.between token w rest) : Makes p previous token w rest
  | scanned {token w rest} (h : p.scanned token w rest) :
      Makes p previous (p.finish previous token) w rest

/-- The scanner moved over a gap from `s` to `t`. -/
def Clears (x : Lexicon) (p : Profile) (s t : Scanner) : Prop :=
  ∃ g, s.Passes g t ∧ Gap (x.Drops p s.previousKind) g t.upcoming.chars

/-- The scanner moved over a gap and the text of `token` from `s` to `t`. -/
inductive Brings (x : Lexicon) (p : Profile) (s : Scanner) (token : Token) (t : Scanner) : Prop
  | intro {g w u} (hgap : Gap (x.Drops p s.previousKind) g (w ++ t.upcoming.chars))
      (hg : s.Passes g u) (hw : w ≠ []) (ht : u.Passes w t)
      (hmade : Makes p s.previousKind token w t.upcoming.chars) (hblank : token.isBlank = false)
      (hliteral : token.literal = String.ofList w) (hposition : token.position = u.position)

theorem Clears.trans {u : Scanner} (h₁ : x.Clears p s t) (h₂ : x.Clears p t u) :
    x.Clears p s u := by
  obtain ⟨g, hg, hgap⟩ := h₁
  obtain ⟨h, hh, hhap⟩ := h₂
  rw [hg.previousKind] at hhap
  rw [hh.upcoming] at hgap
  exact ⟨g ++ h, hg.trans hh, hgap.append hhap⟩

theorem Clears.brings {u : Scanner} (h₁ : x.Clears p s t) (h₂ : x.Brings p t token u) :
    x.Brings p s token u := by
  obtain ⟨g, hg, hgap⟩ := h₁
  obtain ⟨hhap, hh, hw, ht, hmade, hblank, hliteral, hposition⟩ := h₂
  rw [hg.previousKind] at hhap hmade
  rw [hh.upcoming, ht.upcoming] at hgap
  exact .intro (hgap.append hhap) (hg.trans hh) hw ht hmade hblank hliteral hposition

theorem Clears.isFresh (h : x.Clears p s t) : t.IsFresh := by
  obtain ⟨g, hg, -⟩ := h
  exact hg.isFresh

theorem Clears.isClean (h : x.Clears p s t) (hs : s.IsClean) : t.IsClean := by
  obtain ⟨g, hg, -⟩ := h
  exact hg.isClean hs

theorem Clears.suffix (h : x.Clears p s t) : t.upcoming.chars <:+ s.upcoming.chars := by
  obtain ⟨g, hg, -⟩ := h
  exact ⟨g, hg.upcoming.symm⟩

theorem Clears.length_le (h : x.Clears p s t) :
    t.upcoming.chars.length ≤ s.upcoming.chars.length :=
  h.suffix.length_le

theorem Brings.length_lt (h : x.Brings p s token t) :
    t.upcoming.chars.length < s.upcoming.chars.length := by
  obtain ⟨-, hg, hw, ht, -, -, -, -⟩ := h
  exact hg.length_lt ht hw

/-! ### Progress that can be seen -/

/-- What the lexicon drops of the text in one piece is shorter than the range of the numbers of a
position, so that dropping it moves the position. -/
def DropsVisibly (x : Lexicon) (p : Profile) (text : List Char) : Prop :=
  ∀ previous w rest, x.Drops p previous w rest → w ++ rest <:+ text → w.length < UInt32.size

/-- The fault is that of a pass that has dropped a piece of the upcoming text, after which the
position came round to where the piece began. -/
inductive ComesRound (x : Lexicon) (p : Profile) (s : Scanner) (fault : Fault) : Prop
  | intro {previous before piece rest} (htext : s.upcoming.chars = before ++ (piece ++ rest))
      (hne : piece ≠ []) (hdrops : x.Drops p previous piece rest)
      (hround : (s.position.advanceAll before).advanceAll piece = s.position.advanceAll before)
      (hfault : fault = .noProgress (s.position.advanceAll before) ∨
        fault = .discardNoProgress (s.position.advanceAll before))

theorem DropsVisibly.of_suffix {text text' : List Char} (h : x.DropsVisibly p text)
    (hsuffix : text' <:+ text) : x.DropsVisibly p text' :=
  fun previous w rest hdrops hrest => h previous w rest hdrops (hrest.trans hsuffix)

/-- No piece of a short text is too long. -/
theorem dropsVisibly_of_length {text : List Char} (h : text.length < UInt32.size) :
    x.DropsVisibly p text := by
  intro previous w rest _ hrest
  have hle := hrest.length_le
  rw [List.length_append] at hle
  omega

/-- A fault that is met later is met in the same text. -/
theorem ComesRound.of_upcoming {fault : Fault} {g : List Char} (h : x.ComesRound p t fault)
    (hup : s.upcoming.chars = g ++ t.upcoming.chars)
    (hposition : t.position = s.position.advanceAll g) : x.ComesRound p s fault := by
  have hplace (cs : List Char) : t.position.advanceAll cs = s.position.advanceAll (g ++ cs) := by
    rw [hposition, Position.advanceAll_append]
  obtain ⟨htext, hne, hdrops, hround, hfault⟩ := h
  rw [hplace] at hround hfault
  rw [htext, ← List.append_assoc] at hup
  exact .intro hup hne hdrops hround hfault

theorem ComesRound.of_clears {fault : Fault} (h : x.ComesRound p t fault) (hs : x.Clears p s t) :
    x.ComesRound p s fault := by
  obtain ⟨g, hg, -⟩ := hs
  exact h.of_upcoming hg.upcoming hg.position

/-- A piece that is dropped where no piece is too long has moved the position. -/
theorem ComesRound.not_dropsVisibly {fault : Fault} (h : x.ComesRound p s fault) :
    ¬x.DropsVisibly p s.upcoming.chars := by
  obtain ⟨htext, hne, hdrops, hround, -⟩ := h
  intro hs
  exact Position.advanceAll_ne _ hne (hs _ _ _ hdrops ⟨_, htext.symm⟩) hround

section Passes

variable {w : List Char} (hpass : s.Passes w t)

include hpass

/-- A piece that was dropped is a gap. -/
theorem clears_of_drops (hdrops : x.Drops p s.previousKind w t.upcoming.chars) :
    x.Clears p s t :=
  ⟨w, hpass, .single hdrops⟩

/-- Where dropping a piece has not moved the position, the piece leads back to where it began. -/
theorem comesRound_of_drops (hdrops : x.Drops p s.previousKind w t.upcoming.chars) (hw : w ≠ [])
    (hposition : t.position = s.position) {fault : Fault}
    (hfault : fault = .noProgress s.position ∨ fault = .discardNoProgress s.position) :
    x.ComesRound p s fault := by
  have htext : s.upcoming.chars = [] ++ (w ++ t.upcoming.chars) := hpass.upcoming
  have hround : s.position.advanceAll w = s.position := hpass.position.symm.trans hposition
  exact .intro htext hw hdrops hround hfault

end Passes

/-! ### Between tokens -/

theorem clears_whileIn_discards (hs : s.IsFresh) :
    x.Clears p s (s.whileIn x.discards .discard) := by
  refine ⟨_, passes_whileIn_discard x.discards hs, .of_forall fun c hc rest => .discard ?_⟩
  exact List.all_eq_true.mp List.all_takeWhile c hc

/-- A token that was made between tokens is dropped if it is blank and brought otherwise. -/
theorem exists_emit_between {w : List Char} (hs : s.IsFresh) (hw : w ≠ []) (ht : s.Consumes w t)
    (hmade : Emits p.between w t) :
    ∃ u, t.emit = .ok (t.checkValue.assembled, u) ∧ s.Passes w u ∧
      if t.checkValue.assembled.isBlank then x.Drops p s.previousKind w u.upcoming.chars
      else x.Brings p s t.checkValue.assembled u := by
  obtain ⟨u, hemit, hpass, hup, hliteral, hposition⟩ := ht.exists_emit hs hw
  rw [Emits, ← hup] at hmade
  refine ⟨u, hemit, hpass, ?_⟩
  split
  · rename_i hblank
    exact .between hmade hblank
  · rename_i hblank
    exact .intro .nil (.refl hs) hw hpass (.between hmade) (Bool.eq_false_iff.mpr hblank) hliteral
      hposition

theorem Fits.skipDiscardsWithin_cases (hx : x.Fits flags p) {bound : Nat} (hs : s.IsFresh)
    (hbound : s.upcoming.chars.length < bound) :
    (∃ t, x.skipDiscardsWithin flags bound s = .ok (none, t) ∧ x.Clears p s t) ∨
      (∃ token t, x.skipDiscardsWithin flags bound s = .ok (some token, t) ∧
        x.Brings p s token t) ∨
      ∃ fault, x.skipDiscardsWithin flags bound s = .error fault ∧ x.ComesRound p s fault := by
  induction bound generalizing s with
  | zero => omega
  | succ bound ih =>
    have hclear : x.Clears p s (s.whileIn x.discards .discard) := clears_whileIn_discards hs
    rw [skipDiscardsWithin]
    generalize s.whileIn x.discards .discard = u at hclear ⊢
    cases hrule : x.discardRule with
    | none => exact .inl ⟨u, rfl, hclear⟩
    | some rule =>
      have hsound := hx.discardRule rule hrule u hclear.isFresh
      dsimp only
      generalize rule.eval flags u = o at hsound ⊢
      cases hsound with
      | missed ht => exact .inl ⟨_, rfl, hclear.trans ⟨[], ht.passes hclear.isFresh, .nil⟩⟩
      | @matched w t hw ht hmade =>
        obtain ⟨v, hemit, hpass, hv⟩ := exists_emit_between (x := x) hclear.isFresh hw ht hmade
        simp only [hemit, bind, Except.bind, pure, Except.pure, Bool.not_true, Bool.false_eq_true,
          ↓reduceIte]
        cases hblank : t.checkValue.assembled.isBlank with
        | false =>
          rw [hblank, if_neg Bool.false_ne_true] at hv
          exact .inr (.inl ⟨_, v, rfl, hclear.brings hv⟩)
        | true =>
          rw [hblank, if_pos rfl] at hv
          by_cases hposition : v.position = u.position
          · simp only [hposition, Bool.not_true, Bool.false_eq_true, ↓reduceIte]
            have hround := comesRound_of_drops hpass hv hw hposition (.inr rfl)
            exact .inr (.inr ⟨_, rfl, hround.of_clears hclear⟩)
          · simp only [hposition, Bool.not_true, Bool.false_eq_true, ↓reduceIte]
            have hdropped := hclear.trans (clears_of_drops hpass hv)
            have hlength := hpass.length_eq
            have hpos := List.length_pos_iff.mpr hw
            have hle := hclear.length_le
            rcases ih hpass.isFresh (by omega) with
              ⟨t', ht', hc⟩ | ⟨token, t', ht', hb⟩ | ⟨fault, hfault, hround⟩
            · exact .inl ⟨t', ht', hdropped.trans hc⟩
            · exact .inr (.inl ⟨token, t', ht', hdropped.brings hb⟩)
            · exact .inr (.inr ⟨fault, hfault, hround.of_clears hdropped⟩)

/-- Discarding moves over a gap, after which the rule between tokens may have made a token, unless a
piece of the text is too long. -/
theorem Fits.skipDiscards_cases (hx : x.Fits flags p) (hs : s.IsFresh) :
    (∃ t, x.skipDiscards flags s = .ok (none, t) ∧ x.Clears p s t) ∨
      (∃ token t, x.skipDiscards flags s = .ok (some token, t) ∧ x.Brings p s token t) ∨
      ∃ fault, x.skipDiscards flags s = .error fault ∧ x.ComesRound p s fault := by
  have hbound := s.two_mul_length_lt_allowance
  exact hx.skipDiscardsWithin_cases hs (by omega)

/-! ### One token -/

/-- Consumes the text of one token: what the first rule matches, or an unexpected code point. -/
def read (x : Lexicon) (flags : Flags) (s : Scanner) : Except Fault Scanner :=
  Rule.evalFirst flags x.rules s >>= fun o =>
    .ok (if o.1 || o.2.atEnd then o.2 else o.2.keepUnexpected)

/-- What was consumed is emitted and handed to the hook. -/
theorem Fits.scanToken_eq (hx : x.Fits flags p) (s : Scanner) :
    x.scanToken flags s = x.read flags s >>= fun t => t.emit >>= fun r =>
      x.afterToken flags r.1 r.2 := by
  simp only [scanToken, read, hx.beforeToken, hx.noMatch, bind, Except.bind]
  rcases Rule.evalFirst flags x.rules s with fault | ⟨matched, t⟩
  · rfl
  · dsimp only
    split <;> rfl

/-- The rules or the handling of unexpected code points consume text for a token. -/
theorem Fits.exists_read (hx : x.Fits flags p) (hs : s.IsFresh) (hend : s.atEnd = false) :
    ∃ w t, x.read flags s = .ok t ∧ w ≠ [] ∧ s.Consumes w t ∧ Emits p.scanned w t := by
  obtain ⟨c, hc⟩ : ∃ c, s.current? = some c := by
    simpa [atEnd, Option.isSome_iff_exists] using hend
  have hsound := Rule.sound_evalFirst hx.rules hs
  rw [read]
  generalize Rule.evalFirst flags x.rules s = o at hsound
  cases hsound with
  | @matched w t hw ht hmade => exact ⟨w, t, rfl, hw, ht, hmade⟩
  | @missed t ht =>
    have hup : t.upcoming.chars = s.upcoming.chars := congrArg View.upcoming ht.view
    have hcurrent : t.current? = some c := by rw [current?_eq, hup, ← current?_eq, hc]
    have hmore : t.atEnd = false := by rw [atEnd, hcurrent, Option.isNone_some]
    refine ⟨[c], t.keepUnexpected, ?_, List.cons_ne_nil c _,
      ht.consumes (consumes_keepUnexpected hcurrent), hx.unexpected t c (ht.isFresh hs) hcurrent⟩
    simp [bind, Except.bind, hmore]

/-- The text of one token is dropped if the token is blank after the hook, and brought otherwise. -/
theorem Fits.exists_scanToken (hx : x.Fits flags p) (hs : s.IsFresh) (hend : s.atEnd = false) :
    ∃ token w t, x.scanToken flags s = .ok (token, t) ∧ w ≠ [] ∧ s.Passes w t ∧
      if token.isBlank then x.Drops p s.previousKind w t.upcoming.chars
      else x.Brings p s token t := by
  obtain ⟨w, t, hread, hw, ht, hmade⟩ := hx.exists_read hs hend
  obtain ⟨u, hemit, hpass, hup, hliteral, hposition⟩ := ht.exists_emit hs hw
  rw [Emits, ← hup] at hmade
  refine ⟨p.finish s.previousKind t.checkValue.assembled, w, u, ?_, hw, hpass, ?_⟩
  · rw [hx.scanToken_eq, hread, ← hpass.previousKind]
    change t.emit >>= _ = _
    rw [hemit]
    exact hx.afterToken ..
  · split
    · rename_i hblank
      exact .scanned hmade hblank
    · rename_i hblank
      have hblank := Bool.eq_false_iff.mpr hblank
      obtain ⟨hl, hp⟩ := hx.finish _ _ hblank
      exact .intro .nil (.refl hs) hw hpass (.scanned hmade) hblank (hl.trans hliteral)
        (hp.trans hposition)

/-! ### The next token -/

/-- What one call for the next token does: it brings a token, or it finds the end of the text and
reports a failure of the byte source or the end. -/
inductive Step (x : Lexicon) (p : Profile) (s : Scanner) : Token → Scanner → Prop
  | token {token : Token} {t : Scanner} (h : x.Brings p s token t) :
      Step x p s token (accept token t).2
  | failure {t : Scanner} {report : Diagnostic} (h : x.Clears p s t) (hend : t.atEnd)
      (hf : t.failure = some report) :
      Step x p s (t.emitFailure report).1 (t.emitFailure report).2
  | ended {token : Token} {t u : Scanner} (h : x.Clears p s t) (hend : t.atEnd)
      (hf : t.failure = none) (htoken : token.isEnd) : Step x p s token u

theorem Clears.step (h : x.Clears p s t) {u : Scanner} (hstep : x.Step p t token u) :
    x.Step p s token u := by
  cases hstep with
  | token hb => exact .token (h.brings hb)
  | failure hc hend hf => exact .failure (h.trans hc) hend hf
  | ended hc hend hf htoken => exact .ended (h.trans hc) hend hf htoken

/-- At the end of the text a fresh scanner emits the report of a failure or the end. -/
theorem Clears.exists_emit (h : x.Clears p s t) (hend : t.atEnd) :
    ∃ token u, t.emit = .ok (token, u) ∧ x.Step p s token u := by
  cases hf : t.failure with
  | some report => exact ⟨_, _, emit_of_failure h.isFresh.1 hf, .failure h hend hf⟩
  | none =>
    obtain ⟨token, u, hemit, htoken, -⟩ := emit_of_atEnd h.isFresh.1 hf hend
    exact ⟨token, u, hemit, .ended h hend hf htoken⟩

theorem Fits.nextWithin_cases (hx : x.Fits flags p) {bound : Nat} (hs : s.IsFresh)
    (hbound : s.upcoming.chars.length < bound) :
    (∃ token t, x.nextWithin flags bound s = .ok (token, t) ∧ x.Step p s token t) ∨
      ∃ fault, x.nextWithin flags bound s = .error fault ∧ x.ComesRound p s fault := by
  induction bound generalizing s with
  | zero => omega
  | succ bound ih =>
    rw [nextWithin]
    rcases hx.skipDiscards_cases hs with
      ⟨t, ht, hclear⟩ | ⟨token, t, ht, hbrings⟩ | ⟨fault, hfault, hround⟩
    · rw [ht]
      change (∃ token u, (if t.atEnd then t.emit else _) = _ ∧ _) ∨
        ∃ fault, (if t.atEnd then t.emit else _) = _ ∧ _
      split
      · rename_i hend
        exact .inl (hclear.exists_emit hend)
      · rename_i hend
        obtain ⟨token, w, u, hscan, hw, hpass, hu⟩ :=
          hx.exists_scanToken hclear.isFresh (Bool.eq_false_iff.mpr hend)
        simp only [hscan, bind, Except.bind, pure, Except.pure]
        cases hblank : token.isBlank with
        | false =>
          rw [hblank, if_neg Bool.false_ne_true] at hu
          exact .inl ⟨token, _, rfl, .token (hclear.brings hu)⟩
        | true =>
          rw [hblank, if_pos rfl] at hu
          by_cases hposition : u.position = t.position
          · simp only [hposition, Bool.not_true, Bool.false_eq_true, ↓reduceIte]
            have hround := comesRound_of_drops hpass hu hw hposition (.inl rfl)
            exact .inr ⟨_, rfl, hround.of_clears hclear⟩
          · simp only [hposition, Bool.not_true, Bool.false_eq_true, ↓reduceIte]
            have hdropped := hclear.trans (clears_of_drops hpass hu)
            have hlength := hpass.length_eq
            have hpos := List.length_pos_iff.mpr hw
            have hle := hclear.length_le
            rcases ih hpass.isFresh (by omega) with
              ⟨token, t', ht', hstep⟩ | ⟨fault, hfault, hround⟩
            · exact .inl ⟨token, t', ht', hdropped.step hstep⟩
            · exact .inr ⟨fault, hfault, hround.of_clears hdropped⟩
    · rw [ht]
      exact .inl ⟨token, _, rfl, .token hbrings⟩
    · rw [hfault]
      exact .inr ⟨fault, rfl, hround⟩

/-- A call for the next token gives one, unless a piece of the text is too long. -/
theorem Fits.next_cases (hx : x.Fits flags p) (hs : s.IsFresh) :
    (∃ token t, x.next flags s = .ok (token, t) ∧ x.Step p s token t) ∨
      ∃ fault, x.next flags s = .error fault ∧ x.ComesRound p s fault := by
  have hbound := s.two_mul_length_lt_allowance
  exact hx.nextWithin_cases hs (by omega)

/-- A call for the next token gives one, if no piece of the text is too long. -/
theorem Fits.exists_next (hx : x.Fits flags p) (hs : s.IsFresh)
    (hvisible : x.DropsVisibly p s.upcoming.chars) :
    ∃ token t, x.next flags s = .ok (token, t) ∧ x.Step p s token t := by
  refine (hx.next_cases hs).resolve_right ?_
  rintro ⟨fault, -, hround⟩
  exact hround.not_dropsVisibly hvisible

/-- What a call has done is seen from its result. -/
theorem Fits.step_of_next (hx : x.Fits flags p) (hs : s.IsFresh)
    (hnext : x.next flags s = .ok (token, t)) : x.Step p s token t := by
  rcases hx.next_cases hs with ⟨token', t', hnext', hstep⟩ | ⟨fault, hfault, -⟩
  · obtain ⟨rfl, rfl⟩ := Prod.mk.inj (Except.ok.inj (hnext.symm.trans hnext'))
    exact hstep
  · cases hnext.symm.trans hfault

end Lexicon

end Lexing
