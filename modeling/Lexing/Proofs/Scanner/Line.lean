import Lexing.Proofs.Scanner.Passage

/-!
# A text with more lines behind it

`Scanner.Inside n rest s t` says that the scanner `t` has the text of `s` before it and `rest` after
that, `n` lines further down, and the same draft. Where `rest` is empty or begins with the end of a
line, a class of code points without the line feed cannot tell the end of the text of `s` from the
beginning of `rest`, and what consumes a code point of the text of `s` does the same to both.

Diagnostics are counted and not compared: they quote the text, and a line feed that stands after a
backslash is quoted while the end of a text is not.

## Main definitions

* `Position.down` : the position some lines further down.
* `Scanner.Inside` : the same text and draft, with more lines before and after.
* `Token.Lowers` : the same token some lines further down.

## Main results

* `Scanner.Inside.isIn_eq`, `Scanner.Inside.covers_getElem?` : queries.
* `Scanner.Inside.apply`, `Scanner.Inside.times`, `Scanner.Inside.rewind` : operations.
* `Scanner.Inside.whileIn_discard` : discarding.
* `Scanner.Inside.lowers_assembled` : the token of the draft.
-/

namespace Lexing

/-- The position `n` lines further down. Its line is a number of 32 bits, as everywhere. -/
def Position.down (n : Nat) (p : Position) : Position :=
  { p with line := p.line + .ofNat n }

@[simp] theorem Position.down_zero (p : Position) : p.down 0 = p := by
  simp [down]

/-- The line is the sum, if it fits. -/
theorem Position.line_down {n : Nat} {p : Position} (h : p.line.toNat + n < UInt32.size) :
    (p.down n).line.toNat = p.line.toNat + n := by
  have hn : (UInt32.ofNat n).toNat = n := UInt32.toNat_ofNat_of_lt' (by omega)
  rw [down, UInt32.toNat_add, hn]
  exact Nat.mod_eq_of_lt h

theorem Position.down_advance (n : Nat) (p : Position) (c : Char) :
    (p.advance c).down n = (p.down n).advance c := by
  by_cases hc : c = '\n'
  · simp [advance, down, hc, UInt32.add_assoc, UInt32.add_comm 1]
  · simp [advance, down, hc]

theorem Position.down_advanceAll (n : Nat) (p : Position) (cs : List Char) :
    (p.advanceAll cs).down n = (p.down n).advanceAll cs := by
  induction cs generalizing p with
  | nil => rfl
  | cons c cs ih =>
    have hstep (q : Position) : q.advanceAll (c :: cs) = (q.advance c).advanceAll cs := rfl
    rw [hstep, hstep, ih, down_advance]

/-- Nothing, or the end of a line and what comes after it. -/
def EndsLine (rest : List Char) : Prop :=
  rest = [] ∨ rest.head? = some '\n'

theorem EndsLine.any_head? {rest : List Char} (h : EndsLine rest) {p : Char → Bool}
    (hp : p '\n' = false) : rest.head?.any p = false := by
  rcases h with rfl | h
  · rfl
  · rw [h, Option.any_some, hp]

/-- The token `u` is `t`, `n` lines further down. It has as many diagnostics. -/
structure Token.Lowers (n : Nat) (t u : Token) : Prop where
  value : u.value = t.value
  literal : u.literal = t.literal
  kind : u.kind = t.kind
  position : u.position = t.position.down n
  diagnostics : u.diagnostics.length = t.diagnostics.length

theorem Token.Lowers.isEnd_eq {n : Nat} {t u : Token} (h : t.Lowers n u) : u.isEnd = t.isEnd := by
  rw [isEnd, isEnd, h.kind]

namespace Scanner

/-- The scanner `t` has the text and the draft of `s`, `n` lines further down, and `rest` comes
after the text. -/
structure Inside (n : Nat) (rest : List Char) (s t : Scanner) : Prop where
  upcoming : t.upcoming.chars = s.upcoming.chars ++ rest
  position : t.position = s.position.down n
  start : t.start = s.start.down n
  chars : t.draft.latestChars = s.draft.latestChars
  bytes : t.draft.latestBytes = s.draft.latestBytes
  kind : t.draft.kind = s.draft.kind
  problems : t.draft.diagnostics.size = s.draft.diagnostics.size

namespace Inside

variable {n : Nat} {rest : List Char} {s t : Scanner} {m : Move} {k : CharClass} {c : Char}

/-! ### Queries -/

theorem literal_eq (h : s.Inside n rest t) : t.draft.literal = s.draft.literal := by
  rw [Draft.literal, Draft.literal, h.chars]

theorem value_eq (h : s.Inside n rest t) : t.draft.value = s.draft.value := by
  rw [Draft.value, Draft.value, h.bytes]

theorem current?_eq (h : s.Inside n rest t) (hc : s.current? = some c) : t.current? = some c := by
  rw [Scanner.current?_eq, h.upcoming, upcoming_of_current? hc]
  rfl

/-- Where the text of `s` ends, the text of `t` ends as well or the line does. -/
theorem current?_of_none (hrest : EndsLine rest) (h : s.Inside n rest t) (hs : s.current? = none) :
    t.current? = none ∨ t.current? = some '\n' := by
  have hnil : s.upcoming.chars = [] := by simpa [Scanner.current?_eq] using hs
  rw [Scanner.current?_eq, h.upcoming, hnil, List.nil_append]
  exact hrest.imp_left fun hrest => by rw [hrest]; rfl

/-- A class without the line feed sees the same up to the end of the text of `s`. -/
theorem covers_getElem? (hrest : EndsLine rest) (hk : k.contains '\n' = false)
    (h : s.Inside n rest t) {i : Nat} (hi : i ≤ s.upcoming.chars.length) :
    k.covers t.upcoming.chars[i]? = k.covers s.upcoming.chars[i]? := by
  rw [h.upcoming]
  by_cases hlt : i < s.upcoming.chars.length
  · rw [List.getElem?_append_left hlt]
  · obtain rfl : i = s.upcoming.chars.length := by omega
    rw [List.getElem?_append_right (Nat.le_refl _), Nat.sub_self, ← List.head?_eq_getElem?,
      List.getElem?_eq_none (Nat.le_refl _)]
    exact hrest.any_head? hk

theorem isIn_eq (hrest : EndsLine rest) (hk : k.contains '\n' = false) (h : s.Inside n rest t) :
    t.isIn k = s.isIn k := by
  rw [isIn, isIn, Scanner.current?_eq, Scanner.current?_eq, List.head?_eq_getElem?,
    List.head?_eq_getElem?]
  exact h.covers_getElem? hrest hk (Nat.zero_le _)

/-- The code point after the current one is asked for only where there is a current one. -/
theorem followingIn_eq (hrest : EndsLine rest) (hk : k.contains '\n' = false)
    (h : s.Inside n rest t) (hc : s.current? = some c) : t.followingIn k = s.followingIn k := by
  rw [followingIn, followingIn, following?_eq, following?_eq]
  refine h.covers_getElem? hrest hk ?_
  rw [upcoming_of_current? hc, List.length_cons]
  omega

theorem valueText_eq (h : s.Inside n rest t) : t.valueText = s.valueText := by
  rw [valueText, valueText, h.value_eq]

/-! ### The draft -/

theorem pushChar (h : s.Inside n rest t) (c : Char) : (s.pushChar c).Inside n rest (t.pushChar c) :=
  { h with bytes := congrArg (_ ++ ·) h.bytes }

theorem pushByte (h : s.Inside n rest t) (b : UInt8) :
    (s.pushByte b).Inside n rest (t.pushByte b) :=
  { h with bytes := congrArg (b :: ·) h.bytes }

theorem pushLiteral (h : s.Inside n rest t) (c : Char) :
    (s.pushLiteral c).Inside n rest (t.pushLiteral c) :=
  { h with chars := congrArg (·.cons c) h.chars }

theorem setKind (h : s.Inside n rest t) (kind : String) :
    (s.setKind kind).Inside n rest (t.setKind kind) :=
  { h with kind := rfl }

theorem setKind? (h : s.Inside n rest t) (kind : Option String) :
    (s.setKind? kind).Inside n rest (t.setKind? kind) := by
  rcases kind with _ | kind
  · exact h
  · exact h.setKind kind

/-- The problems that are reported may differ in what they quote. -/
theorem reject (h : s.Inside n rest t) (problem problem' : Problem) :
    (s.reject problem).Inside n rest (t.reject problem') :=
  { h with kind := rfl, problems := by simp [Scanner.reject, h.problems] }

theorem restart (h : s.Inside n rest t) : s.restart.Inside n rest t.restart :=
  { h with start := h.position, chars := rfl, bytes := rfl, kind := rfl, problems := rfl }

/-! ### Moves -/

theorem advance (h : s.Inside n rest t) (hc : s.current? = some c) :
    (s.advance c).Inside n rest (t.advance c) where
  upcoming := by
    rw [upcoming_advance, upcoming_advance, h.upcoming, upcoming_of_current? hc]
    rfl
  position := by rw [position_advance, position_advance, h.position, Position.down_advance]
  start := by rw [start_advance, start_advance, h.start]
  chars := by rw [draft_advance, draft_advance, h.chars]
  bytes := by rw [draft_advance, draft_advance, h.bytes]
  kind := by rw [draft_advance, draft_advance, h.kind]
  problems := by rw [draft_advance, draft_advance, h.problems]

theorem keep (h : s.Inside n rest t) (hc : s.current? = some c) : s.keep.Inside n rest t.keep := by
  rw [Scanner.keep, Scanner.keep, hc, h.current?_eq hc]
  exact ((h.pushChar c).pushLiteral c).advance hc

theorem skip (h : s.Inside n rest t) (hc : s.current? = some c) : s.skip.Inside n rest t.skip := by
  rw [Scanner.skip, Scanner.skip, hc, h.current?_eq hc]
  exact (h.pushLiteral c).advance hc

theorem apply (hm : m.IsForward) (h : s.Inside n rest t) (hc : s.current? = some c) :
    (m.apply s).Inside n rest (m.apply t) := by
  rcases hm with rfl | rfl
  · exact h.keep hc
  · exact h.skip hc

theorem discard (h : s.Inside n rest t) (hc : s.current? = some c) :
    s.discard.Inside n rest t.discard := by
  rw [Scanner.discard, Scanner.discard, hc, h.current?_eq hc]
  exact (h.advance hc).restart

theorem keepUnexpected (h : s.Inside n rest t) (hc : s.current? = some c) :
    s.keepUnexpected.Inside n rest t.keepUnexpected :=
  (h.reject _ _).keep (c := c) hc

/-- Moves that stay in the text of `s` may be repeated. -/
theorem times (hm : m.IsForward) {i : Nat} (h : s.Inside n rest t)
    (hi : i ≤ s.upcoming.chars.length) : (s.times i m).Inside n rest (t.times i m) := by
  induction i generalizing s t with
  | zero => exact h
  | succ i ih =>
    obtain ⟨c, cs, hcs⟩ := List.exists_cons_of_length_pos (Nat.lt_of_lt_of_le (Nat.succ_pos i) hi)
    have hc : s.current? = some c := by rw [Scanner.current?_eq, hcs, List.head?_cons]
    refine ih (h.apply hm hc) ?_
    rw [upcoming_apply hm, List.length_tail]
    omega

theorem rewind (h : s.Inside n rest t) : s.rewind.Inside n rest t.rewind where
  upcoming := by
    rw [upcoming_rewind, upcoming_rewind, h.literal_eq, h.upcoming, List.append_assoc]
  position := h.start
  start := h.start
  chars := rfl
  bytes := rfl
  kind := rfl
  problems := rfl

/-! ### Discarding -/

/-- Discarding does the same to both, unless it goes on from the text of `s` to `rest`. -/
theorem whileIn_discard (h : s.Inside n rest t)
    (hstop : rest = [] ∨ ∃ c ∈ s.upcoming.chars, k.contains c = false) :
    (s.whileIn k .discard).Inside n rest (t.whileIn k .discard) := by
  have bounded (bound : List Char) (s t : Scanner) (h : s.Inside n rest t)
      (hbound : s.upcoming.chars = bound)
      (hstop : rest = [] ∨ ∃ c ∈ bound, k.contains c = false) :
      (moveWhile k.contains .discard bound s).Inside n rest
        (moveWhile k.contains .discard (bound ++ rest) t) := by
    induction bound generalizing s t with
    | nil =>
      obtain rfl : rest = [] := hstop.resolve_right (by simp)
      exact h
    | cons c cs ih =>
      have hc : s.current? = some c := by rw [Scanner.current?_eq, hbound, List.head?_cons]
      rw [List.cons_append, moveWhile, moveWhile, hc, h.current?_eq hc, Option.any_some]
      by_cases hk : k.contains c = true
      · rw [if_pos hk, if_pos hk]
        have hup : s.discard.upcoming.chars = cs := by
          rw [upcoming_discard hc, hbound, List.tail_cons]
        refine ih s.discard t.discard (h.discard hc) hup ?_
        refine hstop.imp_right ?_
        rintro ⟨d, hd, hout⟩
        rcases List.mem_cons.mp hd with rfl | hd
        · exact absurd (hk.symm.trans hout) Bool.noConfusion
        · exact ⟨d, hd, hout⟩
      · rw [if_neg hk, if_neg hk]
        exact h
  rw [whileIn, whileIn, h.upcoming]
  exact bounded _ s t h rfl hstop

/-! ### Tokens -/

theorem checkValue (h : s.Inside n rest t) : s.checkValue.Inside n rest t.checkValue := by
  rw [Scanner.checkValue, Scanner.checkValue, h.value_eq]
  split
  · exact h
  · exact h.reject _ _

theorem lowers_assembled (h : s.Inside n rest t) : s.assembled.Lowers n t.assembled where
  value := h.valueText_eq
  literal := by rw [assembled, assembled, literalText, literalText, h.literal_eq]
  kind := by rw [assembled, assembled, emittedKind, emittedKind, h.kind, h.valueText_eq]
  position := h.start
  diagnostics := h.problems

end Inside

end Scanner

end Lexing
