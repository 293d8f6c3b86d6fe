import Lexing.Proofs.Scanner.Passage

/-!
# A text cut out of another one

A scan that ends after the text `v` has looked at what comes after `v`. The same scan is replayed over
`v` where a blank or the end of the text comes next. `Scanner.Shadows v rest rest' s t` says that the
two scans have come equally far: `v` is before both, then `rest` for the scan `s` and `rest'` for the
replay `t`, and the drafts are the same.

A class without the blank that covers a code point for the replay covers it for the scan as well. The
converse holds as long as the scan does not go beyond `v`, and a scan that has consumed a code point
will not give it back. So the text that is consumed in the end tells which questions were about `v`.

## Main definitions

* `IsParted` : nothing, or a blank and what comes after it.
* `Scanner.Shadows` : the same text and draft, before different rests.
* `Token.Repeats` : the same token elsewhere.

## Main results

* `Scanner.Shadows.eq_append` : what is consumed is part of the common text.
* `Scanner.Shadows.covers_getElem?`, `Scanner.Shadows.covers_imp` : questions.
* `Scanner.Shadows.apply`, `Scanner.Shadows.times`, `Scanner.Shadows.whileIn` : moves.
-/

namespace Lexing

/-- Nothing, or a blank and what comes after it. -/
def IsParted (rest : List Char) : Prop :=
  rest = [] ∨ rest.head? = some ' '

/-- The longest run of code points with a property that the blank does not have is the same in two
texts, if it does not go beyond what they have in common. -/
theorem IsParted.takeWhile_append {v rest rest' : List Char} (h : IsParted rest')
    {p : Char → Bool} (hp : p ' ' = false)
    (hlength : ((v ++ rest).takeWhile p).length ≤ v.length) :
    (v ++ rest').takeWhile p = (v ++ rest).takeWhile p := by
  have hstop : rest'.takeWhile p = [] := by
    rcases h with rfl | h
    · rfl
    · obtain ⟨more, rfl⟩ := List.head?_eq_some_iff.mp h
      exact List.takeWhile_cons_of_neg (by simp [hp])
  rw [List.takeWhile_append] at hlength ⊢
  rw [List.takeWhile_append, hstop]
  by_cases hall : (v.takeWhile p).length = v.length
  · rw [if_pos hall, List.length_append] at hlength
    have hnil : rest.takeWhile p = [] := List.eq_nil_of_length_eq_zero (by omega)
    rw [if_pos hall, if_pos hall, hnil]
  · rw [if_neg hall, if_neg hall]

/-- The token `u` has the kind, the value and the literal of `t`, and as few diagnostics. -/
structure Token.Repeats (t u : Token) : Prop where
  kind : u.kind = t.kind
  value : u.value = t.value
  literal : u.literal = t.literal
  diagnostics : t.diagnostics = [] → u.diagnostics = []

theorem Token.Repeats.isBlank_eq {t u : Token} (h : t.Repeats u) : u.isBlank = t.isBlank := by
  rw [isBlank, isBlank, h.kind, h.value]

theorem Token.Repeats.isEnd_eq {t u : Token} (h : t.Repeats u) : u.isEnd = t.isEnd := by
  rw [isEnd, isEnd, h.kind]

namespace Scanner

/-- No report is taken back. -/
theorem Assembles.diagnostics_eq_empty {labels : String → Prop} {s t : Scanner} {w : List Char}
    (h : Assembles labels s w t) (ht : t.draft.diagnostics = #[]) : s.draft.diagnostics = #[] := by
  induction h with
  | refl => exact ht
  | move _ hm ih =>
    refine ih ?_
    rcases hm with rfl | rfl
    · rwa [Move.apply, diagnostics_keep] at ht
    · rwa [Move.apply, diagnostics_skip] at ht
  | pushChar _ _ ih => exact ih ht
  | pushByte _ _ ih => exact ih ht
  | reject => exact absurd ht Array.push_ne_empty
  | setKind _ _ ih => exact ih ht

theorem consumes_of_apply {s : Scanner} {m : Move} {c : Char} (hm : m.IsForward)
    (hc : s.current? = some c) : s.Consumes [c] (m.apply s) := by
  have happly := consumes_apply hm s
  rwa [hc] at happly

/-- Moving as long as a class goes on is moving over the longest run of the class. -/
theorem whileIn_eq_times {m : Move} (hm : m.IsForward) (k : CharClass) (s : Scanner) :
    s.whileIn k m = s.times (s.upcoming.chars.takeWhile k.contains).length m := by
  have bounded (bound : List Char) (s : Scanner) (hbound : s.upcoming.chars = bound) :
      moveWhile k.contains m bound s = s.times (bound.takeWhile k.contains).length m := by
    induction bound generalizing s with
    | nil => rfl
    | cons c cs ih =>
      rw [moveWhile, current?_eq, hbound, List.head?_cons, Option.any_some]
      by_cases hc : k.contains c = true
      · have hup : (m.apply s).upcoming.chars = cs := by
          rw [upcoming_apply hm, hbound, List.tail_cons]
        rw [if_pos hc, ih _ hup, List.takeWhile_cons_of_pos hc]
        rfl
      · rw [if_neg hc, List.takeWhile_cons_of_neg hc]
        rfl
  exact bounded _ s rfl

/-- The scanners have the same draft, about which nothing was reported, and the text `v` before them.
After it, `rest` comes for `s` and `rest'` for `t`. -/
structure Shadows (v rest rest' : List Char) (s t : Scanner) : Prop where
  upcoming : s.upcoming.chars = v ++ rest
  replayed : t.upcoming.chars = v ++ rest'
  draft : t.draft = s.draft
  diagnostics : s.draft.diagnostics = #[]

namespace Shadows

variable {v w x rest rest' : List Char} {s t u : Scanner} {m : Move} {k : CharClass} {c : Char}

/-- A scan that stops before `rest` has consumed a part of the common text. -/
theorem eq_append (h : s.Shadows v rest rest' t) (hx : s.Consumes x u)
    (hu : u.upcoming.chars = w ++ rest) : v = x ++ w := by
  have hup := hx.upcoming
  rw [h.upcoming, hu, ← List.append_assoc] at hup
  exact List.append_cancel_right hup

/-- A scan that consumes the current code point and stops before `rest` has begun within the common
text. -/
theorem eq_cons (hm : m.IsForward) (h : s.Shadows v rest rest' t) (hc : s.current? = some c)
    (hx : (m.apply s).Consumes x u) (hu : u.upcoming.chars = w ++ rest) : v = c :: (x ++ w) :=
  h.eq_append ((consumes_of_apply hm hc).trans hx) hu

theorem of_restores (h : s.Shadows v rest rest' t) {s' t' : Scanner} (hs : s.Restores s')
    (ht : t.Restores t') : s'.Shadows v rest rest' t' where
  upcoming := (congrArg View.upcoming hs.view).trans h.upcoming
  replayed := (congrArg View.upcoming ht.view).trans h.replayed
  draft := (congrArg View.draft ht.view).trans
    (h.draft.trans (congrArg View.draft hs.view).symm)
  diagnostics := by
    rw [show s'.draft = s.draft from congrArg View.draft hs.view]
    exact h.diagnostics

/-! ### Questions -/

theorem getElem?_eq (h : s.Shadows v rest rest' t) {i : Nat} (hi : i < v.length) :
    t.upcoming.chars[i]? = s.upcoming.chars[i]? := by
  rw [h.upcoming, h.replayed, List.getElem?_append_left hi, List.getElem?_append_left hi]

/-- What a class without the blank covers in the replay is in the common text. -/
theorem lt_of_covers (hrest : IsParted rest') (hk : k.contains ' ' = false)
    (h : s.Shadows v rest rest' t) {i : Nat} (hi : i ≤ v.length)
    (hcovers : k.covers t.upcoming.chars[i]? = true) : i < v.length := by
  refine Nat.lt_of_le_of_ne hi ?_
  rintro rfl
  rw [h.replayed, List.getElem?_append_right (Nat.le_refl _), Nat.sub_self,
    ← List.head?_eq_getElem?] at hcovers
  rcases hrest with rfl | hrest
  · exact absurd hcovers Bool.false_ne_true
  · rw [hrest, CharClass.covers, Option.any_some, hk] at hcovers
    exact absurd hcovers Bool.false_ne_true

/-- What a class without the blank covers in the replay, it covers in the scan. -/
theorem covers_imp (hrest : IsParted rest') (hk : k.contains ' ' = false)
    (h : s.Shadows v rest rest' t) {i : Nat} (hi : i ≤ v.length)
    (hcovers : k.covers t.upcoming.chars[i]? = true) : k.covers s.upcoming.chars[i]? = true := by
  rwa [← h.getElem?_eq (h.lt_of_covers hrest hk hi hcovers)]

/-- A class without the blank sees the same, if what it covers is consumed. -/
theorem covers_getElem? (hrest : IsParted rest') (hk : k.contains ' ' = false)
    (h : s.Shadows v rest rest' t) {i : Nat} (hi : i ≤ v.length)
    (hin : k.covers s.upcoming.chars[i]? = true → i < v.length) :
    k.covers t.upcoming.chars[i]? = k.covers s.upcoming.chars[i]? := by
  by_cases hcovers : k.covers s.upcoming.chars[i]? = true
  · rw [h.getElem?_eq (hin hcovers)]
  · rw [Bool.eq_false_iff.mpr hcovers]
    exact Bool.eq_false_iff.mpr fun ht => hcovers (h.covers_imp hrest hk hi ht)

theorem ne_nil_of_isIn (hrest : IsParted rest') (hk : k.contains ' ' = false)
    (h : s.Shadows v rest rest' t) (ht : t.isIn k = true) : v ≠ [] := by
  rw [isIn, Scanner.current?_eq, List.head?_eq_getElem?] at ht
  exact List.length_pos_iff.mp (h.lt_of_covers hrest hk (Nat.zero_le _) ht)

theorem isIn_imp (hrest : IsParted rest') (hk : k.contains ' ' = false)
    (h : s.Shadows v rest rest' t) (ht : t.isIn k = true) : s.isIn k = true := by
  rw [isIn, current?_eq, List.head?_eq_getElem?] at ht ⊢
  exact h.covers_imp hrest hk (Nat.zero_le _) ht

theorem isIn_eq (hrest : IsParted rest') (hk : k.contains ' ' = false)
    (h : s.Shadows v rest rest' t) (hin : s.isIn k = true → v ≠ []) : t.isIn k = s.isIn k := by
  rw [isIn, current?_eq, List.head?_eq_getElem?] at hin ⊢
  rw [isIn, current?_eq, List.head?_eq_getElem?]
  exact h.covers_getElem? hrest hk (Nat.zero_le _) fun hs => List.length_pos_iff.mpr (hin hs)

theorem followingIn_imp (hrest : IsParted rest') (hk : k.contains ' ' = false)
    (h : s.Shadows v rest rest' t) (hv : v ≠ []) (ht : t.followingIn k = true) :
    s.followingIn k = true := by
  rw [followingIn, following?_eq] at ht ⊢
  exact h.covers_imp hrest hk (List.length_pos_iff.mpr hv) ht

theorem followingIn_eq (hrest : IsParted rest') (hk : k.contains ' ' = false)
    (h : s.Shadows v rest rest' t) (hv : v ≠ []) (hin : s.followingIn k = true → 1 < v.length) :
    t.followingIn k = s.followingIn k := by
  rw [followingIn, following?_eq] at hin ⊢
  rw [followingIn, following?_eq]
  exact h.covers_getElem? hrest hk (List.length_pos_iff.mpr hv) hin

theorem current?_eq (h : s.Shadows (c :: v) rest rest' t) : s.current? = some c := by
  rw [Scanner.current?_eq, h.upcoming]
  rfl

theorem current?_replayed (h : s.Shadows (c :: v) rest rest' t) : t.current? = some c := by
  rw [Scanner.current?_eq, h.replayed]
  rfl

/-- Behind the common text the replay has a blank or nothing. -/
theorem current?_of_nil (hrest : IsParted rest') (h : s.Shadows [] rest rest' t) :
    t.current? = none ∨ t.current? = some ' ' := by
  rw [Scanner.current?_eq, h.replayed, List.nil_append]
  exact hrest.imp_left fun hrest => by rw [hrest]; rfl

/-- A code point that is no blank is current in the replay only if it is in the common text. -/
theorem exists_eq_cons (hrest : IsParted rest') (h : s.Shadows v rest rest' t) (hc : c ≠ ' ')
    (ht : t.current? = some c) : ∃ v', v = c :: v' := by
  cases v with
  | nil =>
    rcases h.current?_of_nil hrest with hnone | hblank
    · exact absurd (ht.symm.trans hnone) (Option.some_ne_none c)
    · exact absurd (Option.some.inj (ht.symm.trans hblank)) hc
  | cons d v =>
    obtain rfl := Option.some.inj (h.current?_replayed.symm.trans ht)
    exact ⟨v, rfl⟩

theorem current?_imp (hrest : IsParted rest') (h : s.Shadows v rest rest' t) (hc : c ≠ ' ')
    (ht : t.current? = some c) : s.current? = some c := by
  obtain ⟨v, rfl⟩ := h.exists_eq_cons hrest hc ht
  exact h.current?_eq

/-! ### The draft -/

theorem setKind (h : s.Shadows v rest rest' t) (kind : String) :
    (s.setKind kind).Shadows v rest rest' (t.setKind kind) :=
  { h with draft := by simp only [Scanner.setKind, h.draft] }

theorem setKind? (h : s.Shadows v rest rest' t) (kind : Option String) :
    (s.setKind? kind).Shadows v rest rest' (t.setKind? kind) := by
  rcases kind with _ | kind
  · exact h
  · exact h.setKind kind

theorem pushChar (h : s.Shadows v rest rest' t) (d : Char) :
    (s.pushChar d).Shadows v rest rest' (t.pushChar d) :=
  { h with draft := congrArg (·.pushChar d) h.draft }

theorem pushByte (h : s.Shadows v rest rest' t) (b : UInt8) :
    (s.pushByte b).Shadows v rest rest' (t.pushByte b) :=
  { h with draft := congrArg (·.pushByte b) h.draft }

/-! ### Moves -/

/-- A code point of the common text is consumed in both scans. -/
theorem apply (hm : m.IsForward) (h : s.Shadows (c :: v) rest rest' t) :
    (m.apply s).Shadows v rest rest' (m.apply t) where
  upcoming := by rw [upcoming_apply hm, h.upcoming, List.cons_append, List.tail_cons]
  replayed := by rw [upcoming_apply hm, h.replayed, List.cons_append, List.tail_cons]
  draft := by
    rcases hm with rfl | rfl
    · simp only [Move.apply, Scanner.keep, h.current?_eq, h.current?_replayed, draft_advance,
        pushLiteral, Scanner.pushChar, h.draft]
    · simp only [Move.apply, skip, h.current?_eq, h.current?_replayed, draft_advance, pushLiteral,
        h.draft]
  diagnostics := by
    rcases hm with rfl | rfl
    · exact (diagnostics_keep s).trans h.diagnostics
    · exact (diagnostics_skip s).trans h.diagnostics

theorem keep (h : s.Shadows (c :: v) rest rest' t) : s.keep.Shadows v rest rest' t.keep :=
  h.apply (.inl rfl)

theorem skip (h : s.Shadows (c :: v) rest rest' t) : s.skip.Shadows v rest rest' t.skip :=
  h.apply (.inr rfl)

/-- Repeated moves that do not go beyond the common text. -/
theorem times (hm : m.IsForward) {n : Nat} (h : s.Shadows v rest rest' t)
    (hn : n ≤ s.upcoming.chars.length) (hstay : (s.times n m).upcoming.chars = w ++ rest) :
    n ≤ v.length ∧ (s.times n m).Shadows w rest rest' (t.times n m) := by
  have hmoved {x : List Char} {s t : Scanner} (h : s.Shadows (x ++ w) rest rest' t) :
      (s.times x.length m).Shadows w rest rest' (t.times x.length m) := by
    induction x generalizing s t with
    | nil => exact h
    | cons c x ih => exact ih (h.apply hm)
  have htaken : Assembles (fun _ => True) s _ (s.times n m) := assembles_times hm n s
  obtain rfl := h.eq_append htaken.consumes hstay
  have hlength : (s.upcoming.chars.take n).length = n := by
    rw [List.length_take, Nat.min_eq_left hn]
  have htimes := hmoved h
  rw [hlength] at htimes
  exact ⟨by rw [List.length_append, hlength]; exact Nat.le_add_right .., htimes⟩

/-- Moves as long as a class without the blank goes on, which is not beyond the common text. -/
theorem whileIn (hrest : IsParted rest') (hk : k.contains ' ' = false) (hm : m.IsForward)
    (h : s.Shadows v rest rest' t) (hstay : (s.whileIn k m).upcoming.chars = w ++ rest) :
    (s.whileIn k m).Shadows w rest rest' (t.whileIn k m) := by
  have hrun : Assembles (fun _ => True) s _ (s.whileIn k m) := assembles_whileIn hm k s
  have hsame : t.upcoming.chars.takeWhile k.contains = s.upcoming.chars.takeWhile k.contains := by
    have hlength := congrArg List.length (h.eq_append hrun.consumes hstay)
    rw [List.length_append, h.upcoming] at hlength
    rw [h.replayed, h.upcoming]
    exact hrest.takeWhile_append hk (by omega)
  rw [whileIn_eq_times hm] at hstay ⊢
  rw [whileIn_eq_times hm, hsame]
  exact (h.times hm (List.takeWhile_prefix _).length_le hstay).2

/-! ### Tokens -/

theorem repeats_assembled (h : s.Shadows v rest rest' t) : s.assembled.Repeats t.assembled where
  kind := by simp only [assembled, emittedKind, valueText, h.draft]
  value := by simp only [assembled, valueText, h.draft]
  literal := by simp only [assembled, literalText, h.draft]
  diagnostics := fun hs => by rw [← hs, assembled, assembled, h.draft]

end Shadows

end Scanner

end Lexing
