import Lexing.Proofs.Input.Window
import Lexing.Proofs.Position
import Lexing.Scanner.Move

/-!
# What a scanner consumes

The state of a scan has two parts. The view is what rules can see: the upcoming text, the draft and
the positions. Apart from it there is the failure of the byte source, which is behind the text or
has been noticed, and a scanner is clean if there is none.

`Scanner.Consumes s w t` says that the scanner moved from `s` to `t` over the text `w` within one
draft: `w` left the upcoming text and was added to the literal, and the position moved over it. It
leaves open what became of the value, the kind and the diagnostics of the draft. It composes, so
that a rule is followed part by part.

## Main definitions

* `Scanner.view`, `Scanner.IsClean` : the two parts of the state.
* `Scanner.IsFresh` : the draft is empty and begins here.
* `Scanner.Consumes` : moves over a text within one draft.
* `Scanner.Restores` : shows the same as before.

## Main results

* `Scanner.Consumes.trans`, `Scanner.consumes_apply`.
* `Scanner.Consumes.restores_rewind` : rewinding takes back all that a draft has consumed.
-/

namespace Lexing

/-- What a scanner shows of its state, failures of the byte source left out. -/
structure View where
  /-- The text to be consumed. -/
  upcoming : List Char
  /-- The position of the current code point. -/
  position : Position
  /-- The position where the draft begins. -/
  start : Position
  /-- The token that is being assembled. -/
  draft : Draft
  /-- The kind of the previous token, comments not counted. -/
  previousKind : String
  /-- The number of tokens in a row that were emitted without consuming text. -/
  stalls : Nat

namespace Scanner

/-- What a scanner shows of its state, failures of the byte source left out. -/
def view (s : Scanner) : View where
  upcoming := s.upcoming.chars
  position := s.position
  start := s.start
  draft := s.draft
  previousKind := s.previousKind
  stalls := s.stalls

/-- No failure of the byte source was noticed, and none is behind the text. -/
def IsClean (s : Scanner) : Prop :=
  s.failure = none ∧ s.window.ending = none

instance (s : Scanner) : Decidable s.IsClean :=
  inferInstanceAs (Decidable (s.failure = none ∧ s.window.ending = none))

/-- The draft is empty and begins at the current position. -/
def IsFresh (s : Scanner) : Prop :=
  s.draft = {} ∧ s.start = s.position

/-! ### The upcoming text -/

/-- The current code point is the first of the upcoming text. -/
theorem current?_eq (s : Scanner) : s.current? = s.upcoming.chars.head? :=
  s.window.current?_eq

/-- The code point after the current one is the second of the upcoming text. -/
theorem following?_eq (s : Scanner) : s.following? = s.upcoming.chars[1]? :=
  s.window.following?_eq

theorem peek?_natCast (s : Scanner) (n : Nat) : s.peek? n = s.upcoming.chars[n]? :=
  s.window.fst_peekAt n

/-- Negative indexes lead into the literal from its end. -/
theorem peek?_negSucc (s : Scanner) (n : Nat) :
    s.peek? (.negSucc n) = s.draft.literal.reverse[n]? := by
  simp [peek?, peek, Draft.literal]

theorem upcoming_of_current? {s : Scanner} {c : Char} (h : s.current? = some c) :
    s.upcoming.chars = c :: s.upcoming.chars.tail := by
  rw [current?_eq] at h
  obtain ⟨cs, hcs⟩ := List.head?_eq_some_iff.mp h
  rw [hcs, List.tail_cons]

theorem exists_of_isIn {s : Scanner} {k : CharClass} (h : s.isIn k = true) :
    ∃ c, s.current? = some c ∧ k.contains c = true :=
  (Option.any_eq_true _ _).mp h

theorem atEnd_eq (s : Scanner) : s.atEnd = s.upcoming.chars.isEmpty := by
  rw [atEnd, current?_eq]
  cases s.upcoming.chars <;> rfl

/-! ### Moving past a code point -/

@[simp] theorem window_notice (s : Scanner) (cause : Option String) :
    (s.notice cause).window = s.window := by cases cause <;> rfl

@[simp] theorem position_notice (s : Scanner) (cause : Option String) :
    (s.notice cause).position = s.position := by cases cause <;> rfl

@[simp] theorem start_notice (s : Scanner) (cause : Option String) :
    (s.notice cause).start = s.start := by cases cause <;> rfl

@[simp] theorem draft_notice (s : Scanner) (cause : Option String) :
    (s.notice cause).draft = s.draft := by cases cause <;> rfl

@[simp] theorem previousKind_notice (s : Scanner) (cause : Option String) :
    (s.notice cause).previousKind = s.previousKind := by cases cause <;> rfl

@[simp] theorem stalls_notice (s : Scanner) (cause : Option String) :
    (s.notice cause).stalls = s.stalls := by cases cause <;> rfl

@[simp] theorem window_advance (s : Scanner) (c : Char) :
    (s.advance c).window = s.window.shift.1 := by simp [advance]

@[simp] theorem upcoming_advance (s : Scanner) (c : Char) :
    (s.advance c).upcoming.chars = s.upcoming.chars.tail := by
  simp [upcoming]

/-- A failure is noticed at the position after the code point. -/
theorem failure_advance (s : Scanner) (c : Char) :
    (s.advance c).failure = (s.window.shift.2.map fun cause =>
      ⟨s.position.advance c, .unreadable, some cause⟩).or s.failure := by
  unfold advance
  split
  rename_i cause h
  rw [h]
  cases cause <;> rfl

@[simp] theorem position_advance (s : Scanner) (c : Char) :
    (s.advance c).position = s.position.advance c := by simp [advance]

@[simp] theorem start_advance (s : Scanner) (c : Char) : (s.advance c).start = s.start := by
  simp [advance]

@[simp] theorem draft_advance (s : Scanner) (c : Char) : (s.advance c).draft = s.draft := by
  simp [advance]

@[simp] theorem previousKind_advance (s : Scanner) (c : Char) :
    (s.advance c).previousKind = s.previousKind := by simp [advance]

@[simp] theorem stalls_advance (s : Scanner) (c : Char) : (s.advance c).stalls = s.stalls := by
  simp [advance]

/-- Moving on does not bring a failure about. -/
theorem IsClean.advance {s : Scanner} (h : s.IsClean) (c : Char) : (s.advance c).IsClean := by
  have hend := s.window.ending_shift
  rw [h.2, ite_self] at hend
  obtain ⟨hwindow, hcause⟩ := Prod.mk.inj hend
  constructor
  · simp [failure_advance, hcause, h.1]
  · simp [hwindow]

/-! ### Consuming -/

/-- The scanner moved from `s` to `t` over the text `w` within one draft. -/
structure Consumes (s : Scanner) (w : List Char) (t : Scanner) : Prop where
  upcoming : s.upcoming.chars = w ++ t.upcoming.chars
  literal : t.draft.literal = s.draft.literal ++ w
  position : t.position = s.position.advanceAll w
  start : t.start = s.start
  previousKind : t.previousKind = s.previousKind
  stalls : t.stalls = s.stalls
  isClean : s.IsClean → t.IsClean

namespace Consumes

variable {s t u : Scanner} {v w : List Char}

theorem refl (s : Scanner) : s.Consumes [] s :=
  ⟨rfl, by simp, rfl, rfl, rfl, rfl, id⟩

theorem trans (h₁ : s.Consumes v t) (h₂ : t.Consumes w u) : s.Consumes (v ++ w) u where
  upcoming := by rw [h₁.upcoming, h₂.upcoming, List.append_assoc]
  literal := by rw [h₂.literal, h₁.literal, List.append_assoc]
  position := by rw [h₂.position, h₁.position, Position.advanceAll_append]
  start := h₂.start.trans h₁.start
  previousKind := h₂.previousKind.trans h₁.previousKind
  stalls := h₂.stalls.trans h₁.stalls
  isClean := h₂.isClean ∘ h₁.isClean

/-- What is done to the value, the kind and the diagnostics of the draft consumes nothing. -/
theorem withDraft (h : s.Consumes w t) {d : Draft} (hd : d.literal = t.draft.literal) :
    s.Consumes w { t with draft := d } :=
  { h with literal := hd.trans h.literal }

theorem setKind (h : s.Consumes w t) (kind : String) : s.Consumes w (t.setKind kind) :=
  h.withDraft rfl

theorem reject (h : s.Consumes w t) (problem : Problem) : s.Consumes w (t.reject problem) :=
  h.withDraft rfl

theorem pushChar (h : s.Consumes w t) (c : Char) : s.Consumes w (t.pushChar c) :=
  h.withDraft rfl

theorem pushByte (h : s.Consumes w t) (b : UInt8) : s.Consumes w (t.pushByte b) :=
  h.withDraft rfl

theorem length_le (h : s.Consumes w t) :
    t.upcoming.chars.length + w.length = s.upcoming.chars.length := by
  rw [h.upcoming, List.length_append, Nat.add_comm]

end Consumes

/-! ### Moves -/

theorem consumes_skip (s : Scanner) : s.Consumes s.current?.toList s.skip := by
  unfold skip
  cases hc : s.current? with
  | none => exact .refl s
  | some c =>
    have hup : (s.pushLiteral c).upcoming = s.upcoming := rfl
    refine ⟨?_, ?_, ?_, ?_, ?_, ?_, fun h => IsClean.advance (s := s.pushLiteral c) h c⟩
    · simpa [hup] using upcoming_of_current? hc
    all_goals simp [pushLiteral, Position.advanceAll]

theorem consumes_keep (s : Scanner) : s.Consumes s.current?.toList s.keep := by
  unfold keep
  cases hc : s.current? with
  | none => exact .refl s
  | some c =>
    have h := consumes_skip (s.pushChar c)
    rw [skip, show (s.pushChar c).current? = some c from hc] at h
    simpa using ((Consumes.refl s).pushChar c).trans h

/-- An unexpected code point is consumed. -/
theorem consumes_keepUnexpected {s : Scanner} {c : Char} (h : s.current? = some c) :
    s.Consumes [c] s.keepUnexpected := by
  have hkeep := consumes_keep (s.reject (.unexpected (String.ofList s.current?.toList)))
  rw [show (s.reject _).current? = some c from h] at hkeep
  exact ((Consumes.refl s).reject _).trans hkeep

@[simp] theorem diagnostics_skip (s : Scanner) :
    s.skip.draft.diagnostics = s.draft.diagnostics := by
  unfold skip
  split <;> simp [pushLiteral, Draft.pushLiteral]

@[simp] theorem diagnostics_keep (s : Scanner) :
    s.keep.draft.diagnostics = s.draft.diagnostics := by
  unfold keep
  split <;> simp [pushLiteral, Draft.pushLiteral, pushChar, Draft.pushChar]

/-- Looking at a code point consumes nothing. -/
theorem consumes_peek (s : Scanner) (i : Int) : s.Consumes [] (s.peek i).2 := by
  cases i with
  | ofNat n => exact ⟨by simp [peek, upcoming], by simp [peek], rfl, rfl, rfl, rfl,
      fun h => ⟨h.1, (s.window.ending_peekAt n).trans h.2⟩⟩
  | negSucc n => exact .refl s

end Scanner

/-- Keeping and skipping consume the current code point. -/
def Move.IsForward (m : Move) : Prop :=
  m = keep ∨ m = skip

theorem Move.isForward_ite (b : Bool) : (if b then skip else keep).IsForward := by
  cases b
  · exact .inl rfl
  · exact .inr rfl

namespace Scanner

variable {m : Move}

theorem consumes_apply (hm : m.IsForward) (s : Scanner) :
    s.Consumes s.current?.toList (m.apply s) := by
  rcases hm with rfl | rfl
  · exact consumes_keep s
  · exact consumes_skip s

theorem upcoming_apply (hm : m.IsForward) (s : Scanner) :
    (m.apply s).upcoming.chars = s.upcoming.chars.tail := by
  have h := (consumes_apply hm s).upcoming
  rw [current?_eq] at h
  cases hup : s.upcoming.chars with
  | nil => simpa [hup] using h
  | cons c cs => simpa [hup, eq_comm] using h

/-! ### Rewinding -/

/-- The scanner shows the same in `t` as in `s`, and has noticed no failure if there is none. -/
structure Restores (s t : Scanner) : Prop where
  view : t.view = s.view
  isClean : s.IsClean → t.IsClean

theorem Restores.refl (s : Scanner) : s.Restores s :=
  ⟨rfl, id⟩

theorem Restores.trans {s t u : Scanner} (h₁ : s.Restores t) (h₂ : t.Restores u) : s.Restores u :=
  ⟨h₂.view.trans h₁.view, h₂.isClean ∘ h₁.isClean⟩

namespace Restores

variable {s t u : Scanner} {w : List Char}

theorem isFresh (h : s.Restores t) (hs : s.IsFresh) : t.IsFresh :=
  ⟨(congrArg View.draft h.view).trans hs.1, (congrArg View.start h.view).trans
    (hs.2.trans (congrArg View.position h.view).symm)⟩

/-- What is consumed after everything was given back is consumed from where the scanner was. -/
theorem consumes (h : s.Restores t) (ht : t.Consumes w u) : s.Consumes w u where
  upcoming := (congrArg View.upcoming h.view).symm.trans ht.upcoming
  literal := by rw [ht.literal, show t.draft = s.draft from congrArg View.draft h.view]
  position := by rw [ht.position, show t.position = s.position from congrArg View.position h.view]
  start := ht.start.trans (congrArg View.start h.view)
  previousKind := ht.previousKind.trans (congrArg View.previousKind h.view)
  stalls := ht.stalls.trans (congrArg View.stalls h.view)
  isClean := ht.isClean ∘ h.isClean

end Restores

theorem chars_foldl_pushBack (cs : List Char) (w : Window) :
    (cs.foldl (fun w c => w.pushBack c) w).text.chars = cs.reverse ++ w.text.chars := by
  induction cs generalizing w with
  | nil => rfl
  | cons c cs ih => simp [ih]

theorem ending_foldl_pushBack (cs : List Char) (w : Window) :
    (cs.foldl (fun w c => w.pushBack c) w).ending = w.ending := by
  induction cs generalizing w with
  | nil => rfl
  | cons c cs ih => simp [ih]

/-- Rewinding puts the literal in front of the upcoming text. -/
theorem upcoming_rewind (s : Scanner) :
    s.rewind.upcoming.chars = s.draft.literal ++ s.upcoming.chars :=
  chars_foldl_pushBack ..

theorem ending_rewind (s : Scanner) : s.rewind.window.ending = s.window.ending :=
  ending_foldl_pushBack ..

/-- Rewinding takes back all that was consumed since the draft was empty. -/
theorem Consumes.restores_rewind {s t : Scanner} {w : List Char} (h : s.Consumes w t)
    (hs : s.IsFresh) : s.Restores t.rewind where
  view := by
    have hliteral : t.draft.literal = w := by simpa [hs.1] using h.literal
    have hupcoming := t.upcoming_rewind
    rw [hliteral, ← h.upcoming] at hupcoming
    simp only [Scanner.view, View.mk.injEq]
    exact ⟨hupcoming, h.start.trans hs.2, h.start, hs.1.symm, h.previousKind, h.stalls⟩
  isClean hclean := ⟨(h.isClean hclean).1, t.ending_rewind.trans (h.isClean hclean).2⟩

end Scanner

end Lexing
