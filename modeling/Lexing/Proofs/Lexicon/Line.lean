import Lexing.Proofs.Lexicon.Pass
import Lexing.Proofs.Rule.Line
import Mathlib.Data.List.Forall2

/-!
# Lexicons that scan line by line

Where every rule stays on its line and line feeds are discarded, a text is scanned line by line: the
tokens of a text are the same, whether or not more lines stand before or after it, and only their
positions differ. What is malformed in a line has no effect on another line.

The scan of the text is followed beside the scan of a longer one, token by token. At the end of the
text only code points to be discarded are left of it, and the longer scan goes on behind them.

## Main definitions

* `Lexicon.IsLineWise` : what a lexicon needs to scan line by line.

## Main results

* `Lexicon.IsLineWise.next_of_inside` : one token.
* `Lexicon.IsLineWise.exists_run_of_inside` : all tokens, and where the longer scan stands then.
* `Lexicon.IsLineWise.exists_run_of_lines` : two texts with a line feed between them.
-/

namespace Lexing

open Scanner

namespace Scanner

variable {n : Nat} {rest : List Char} {s t : Scanner}

theorem Inside.isFresh (h : s.Inside n rest t) (hs : s.IsFresh) : t.IsFresh := by
  refine ⟨?_, by rw [h.start, hs.2, h.position]⟩
  have hbytes := h.bytes
  have hchars := h.chars
  have hkind := h.kind
  have hsize := h.problems
  rw [hs.1] at hbytes hchars hkind hsize
  have hproblems : t.draft.diagnostics = #[] := Array.eq_empty_of_size_eq_zero hsize
  rcases ht : t.draft with ⟨bytes, chars, kind, diagnostics⟩
  simp_all

theorem Inside.renew (h : s.Inside n rest t) : s.renew.Inside n rest t.renew :=
  Inside.restart { h.checkValue with }

/-- Fresh scanners are compared by their texts and positions. -/
theorem IsFresh.inside (hs : s.IsFresh) (ht : t.IsFresh)
    (hup : t.upcoming.chars = s.upcoming.chars ++ rest)
    (hposition : t.position = s.position.down n) :
    s.Inside n rest t where
  upcoming := hup
  position := hposition
  start := by rw [ht.2, hs.2, hposition]
  chars := by rw [ht.1, hs.1]
  bytes := by rw [ht.1, hs.1]
  kind := by rw [ht.1, hs.1]
  problems := by rw [ht.1, hs.1]

theorem Inside.accept (h : s.Inside n rest t) (token token' : Token) :
    (Lexicon.accept token s).2.Inside n rest (Lexicon.accept token' t).2 := by
  rw [Lexicon.accept_eq, Lexicon.accept_eq]
  exact { h with }

end Scanner

namespace Lexicon

variable {x : Lexicon} {flags : Flags} {p : Profile} {n : Nat} {rest : List Char} {s t : Scanner}
  {tokens : List Token}

/-- All rules stay on their line, line feeds are discarded, and every token that is scanned is
handed out as it is. -/
structure IsLineWise (x : Lexicon) (flags : Flags) (p : Profile) : Prop
    extends x.IsDirect flags p where
  rules : ∀ r ∈ x.rules, r.StaysOnLine flags
  lineFeed : x.discards.contains '\n' = true

/-! ### Discarding -/

/-- A run goes on behind what is discarded. -/
theorem Fits.exists_passes_discarded (hx : x.Fits flags p) (hdiscard : x.discardRule = none)
    (hs : s.IsFresh) {gap : List Char} (hup : s.upcoming.chars = gap ++ rest)
    (hgap : ∀ c ∈ gap, x.discards.contains c = true) :
    ∃ t, s.Passes gap t ∧ t.upcoming.chars = rest ∧
      ∀ tokens, x.Run flags t tokens → x.Run flags s tokens := by
  induction gap generalizing s with
  | nil => exact ⟨s, .refl hs, hup, fun _ => id⟩
  | cons c gap ih =>
    obtain ⟨hk, hgap⟩ := List.forall_mem_cons.mp hgap
    have hc : s.current? = some c := by
      rw [Scanner.current?_eq, hup, List.cons_append, List.head?_cons]
    have hpass := passes_discard hc
    have hrest : s.discard.upcoming.chars = gap ++ rest := by
      rw [upcoming_discard hc, hup, List.cons_append, List.tail_cons]
    obtain ⟨t, ht, htrest, hrun⟩ := ih hpass.isFresh hrest hgap
    refine ⟨t, hpass.trans ht, htrest, fun tokens htokens => ?_⟩
    exact .congr (hx.next_discard hdiscard hs hc hk) (hrun tokens htokens)

namespace IsLineWise

/-! ### One token -/

/-- The text of one token is read the same. -/
theorem inside_read (hx : x.IsLineWise flags p) (hrest : EndsLine rest) (hs : s.IsFresh)
    (hend : s.atEnd = false) (h : s.Inside n rest t) :
    Corresponds (Inside n rest) (x.read flags s) (x.read flags t) := by
  have hsound := Rule.sound_evalFirst hx.fits.rules hs
  have hfirst := Rule.inside_evalFirst hx.rules hrest h
  rw [read, read]
  generalize Rule.evalFirst flags x.rules s = o at hsound hfirst
  generalize Rule.evalFirst flags x.rules t = o' at hfirst
  cases hsound with
  | matched =>
    cases hfirst with
    | ok hpair =>
      obtain ⟨hmatched, huv⟩ := hpair
      simp only [bind, Except.bind, hmatched, Bool.true_or, if_true]
      exact .ok huv
  | @missed u hu =>
    cases hfirst with
    | @ok _ v hpair =>
      obtain ⟨hmatched, huv⟩ := hpair
      -- Nothing was consumed, so that both scanners stand before the same code point.
      obtain ⟨c, hc⟩ : ∃ c, u.current? = some c := by
        have hup : u.upcoming.chars = s.upcoming.chars := congrArg View.upcoming hu.view
        rw [Scanner.current?_eq, hup, ← Scanner.current?_eq]
        simpa [atEnd, Option.isSome_iff_exists] using hend
      have hc' := huv.current?_eq hc
      simp only [bind, Except.bind, hmatched, atEnd, hc, hc', Bool.false_or, Option.isNone_some]
      exact .ok (huv.keepUnexpected hc)

/-- One call: the same token, some lines further down. -/
theorem next_of_inside (hx : x.IsLineWise flags p) (hrest : EndsLine rest) (hs : s.IsFresh)
    (h : s.Inside n rest t) (hmore : ∃ c ∈ s.upcoming.chars, x.discards.contains c = false) :
    ∃ token token' u v, x.next flags s = .ok (token, u) ∧ x.next flags t = .ok (token', v) ∧
      token.Lowers n token' ∧ token.isEnd = false ∧ u.Inside n rest v ∧ u.IsFresh ∧
      u.finalPosition = s.finalPosition ∧ (s.IsClean → u.IsClean) ∧ (t.IsClean → v.IsClean) := by
  have ht := h.isFresh hs
  have hgap := passes_whileIn_discard x.discards hs
  have hgap' := passes_whileIn_discard x.discards ht
  have hbetween := h.whileIn_discard (k := x.discards) (.inr hmore)
  have hend : (s.whileIn x.discards .discard).atEnd = false := by
    obtain ⟨c, hc, hout⟩ := hmore
    rw [Bool.eq_false_iff]
    intro hend
    have hnil : (s.whileIn x.discards .discard).upcoming.chars = [] := by
      simpa [Scanner.atEnd_eq] using hend
    rw [hgap.upcoming, hnil, List.append_nil] at hc
    rw [List.mem_takeWhile_imp hc] at hout
    exact Bool.noConfusion hout
  have hend' : (t.whileIn x.discards .discard).atEnd = false := by
    obtain ⟨c, hc⟩ : ∃ c, (s.whileIn x.discards .discard).current? = some c := by
      simpa [atEnd, Option.isSome_iff_exists] using hend
    rw [atEnd, hbetween.current?_eq hc, Option.isNone_some]
  obtain ⟨_, u, hu, -⟩ := hx.fits.exists_read hgap.isFresh hend
  obtain ⟨_, v, hv, -⟩ := hx.fits.exists_read hgap'.isFresh hend'
  obtain ⟨hnext, hisEnd, _, -, hpass⟩ := hx.next_of_read hs hend hu
  obtain ⟨hnext', -, _, -, hpass'⟩ := hx.next_of_read ht hend' hv
  have hread := hx.inside_read hrest hgap.isFresh hend hbetween
  rw [hu, hv] at hread
  cases hread with
  | ok huv =>
    refine ⟨u.checkValue.assembled, v.checkValue.assembled, (accept _ u.renew).2,
      (accept _ v.renew).2, hnext, hnext', huv.checkValue.lowers_assembled, hisEnd,
      huv.renew.accept _ _, ?_, ?_, ?_, ?_⟩
    · rw [accept_eq]
      exact hpass.isFresh
    · rw [accept_eq]
      exact hpass.finalPosition_eq
    · rw [accept_eq]
      exact hpass.isClean
    · rw [accept_eq]
      exact hpass'.isClean

/-! ### All tokens -/

/-- All calls: the same tokens, some lines further down. After them the longer scan stands before
code points that are discarded, and then `rest`. -/
theorem exists_run_of_inside (hx : x.IsLineWise flags p) (hrest : EndsLine rest) (hs : s.IsFresh)
    (hclean : s.IsClean) (hclean' : t.IsClean) (h : s.Inside n rest t)
    (hrun : x.Run flags s tokens) :
    ∃ tokens' u gap, List.Forall₂ (Token.Lowers n) tokens tokens' ∧
      (∀ more, x.Run flags u more → x.Run flags t (tokens' ++ more)) ∧
      u.upcoming.chars = gap ++ rest ∧ (∀ c ∈ gap, x.discards.contains c = true) ∧
      u.position.advanceAll gap = s.finalPosition.down n ∧ u.IsFresh ∧ u.IsClean := by
  induction hrun generalizing t with
  | @ended s s' token hnext hend =>
    by_cases hall : ∀ c ∈ s.upcoming.chars, x.discards.contains c = true
    · refine ⟨[], t, s.upcoming.chars, .nil, fun _ => id, h.upcoming, hall, ?_, h.isFresh hs,
        hclean'⟩
      rw [h.position, finalPosition, Position.down_advanceAll]
    · have hmore : ∃ c ∈ s.upcoming.chars, x.discards.contains c = false := by simpa using hall
      obtain ⟨token', -, u, -, hnext', -, -, hnot, -⟩ := hx.next_of_inside hrest hs h hmore
      obtain ⟨rfl, -⟩ := Prod.mk.inj (Except.ok.inj (hnext.symm.trans hnext'))
      exact absurd (hend.symm.trans hnot) Bool.noConfusion
  | @token s s' token tokens hnext hnot hrun ih =>
    by_cases hall : ∀ c ∈ s.upcoming.chars, x.discards.contains c = true
    · have hended : x.Run flags s [] := run_of_discarded hx.discardRule hs hclean hall
      cases hended with
      | ended hnext' hend =>
        obtain ⟨rfl, -⟩ := Prod.mk.inj (Except.ok.inj (hnext.symm.trans hnext'))
        exact absurd (hnot.symm.trans hend) Bool.noConfusion
    · have hmore : ∃ c ∈ s.upcoming.chars, x.discards.contains c = false := by simpa using hall
      obtain ⟨_, token', _, v, hs', ht', hlowers, -, huv, hfresh, hfinal, hu, hv⟩ :=
        hx.next_of_inside hrest hs h hmore
      obtain ⟨rfl, rfl⟩ := Prod.mk.inj (Except.ok.inj (hs'.symm.trans hnext))
      obtain ⟨tokens', w, gap, htokens, hmore', hup, hgap, hposition, hw, hwclean⟩ :=
        ih hfresh (hu hclean) (hv hclean') huv
      refine ⟨token' :: tokens', w, gap, .cons hlowers htokens, fun more hrun' => ?_, hup, hgap,
        hfinal ▸ hposition, hw, hwclean⟩
      exact .token ht' (hlowers.isEnd_eq.trans hnot) (hmore' more hrun')

/-- Two texts with a line feed between them: the tokens of the first text, and those of the second
text further down. -/
theorem exists_run_of_lines (hx : x.IsLineWise flags p) {s t u : Scanner} (hs : s.IsFresh)
    (hsclean : s.IsClean) (ht : t.IsFresh) (htclean : t.IsClean) (hu : u.IsFresh)
    (huclean : u.IsClean)
    (hup : u.upcoming.chars = s.upcoming.chars ++ '\n' :: t.upcoming.chars)
    (hposition : u.position = s.position)
    (hnext : s.finalPosition.advance '\n' = t.position.down n) {first second : List Token}
    (hfirst : x.Run flags s first) (hsecond : x.Run flags t second) :
    ∃ first' second', x.Run flags u (first' ++ second') ∧
      List.Forall₂ (Token.Lowers 0) first first' ∧
      List.Forall₂ (Token.Lowers n) second second' := by
  have hlineFeed : EndsLine ('\n' :: t.upcoming.chars) := .inr rfl
  have hstart : s.Inside 0 ('\n' :: t.upcoming.chars) u :=
    hs.inside hu hup (hposition.trans s.position.down_zero.symm)
  obtain ⟨first', v, gap, hfirst', hmore, hvup, hgap, hvposition, hv, hvclean⟩ :=
    hx.exists_run_of_inside hlineFeed hs hsclean huclean hstart hfirst
  have hbetween : v.upcoming.chars = (gap ++ ['\n']) ++ t.upcoming.chars := by simpa using hvup
  have hdiscarded : ∀ c ∈ gap ++ ['\n'], x.discards.contains c = true :=
    List.forall_mem_append.mpr ⟨hgap, by simpa using hx.lineFeed⟩
  obtain ⟨w, hpass, hwup, hwrun⟩ :=
    hx.fits.exists_passes_discarded hx.discardRule hv hbetween hdiscarded
  have hwposition : w.position = t.position.down n := by
    rw [hpass.position, Position.advanceAll_append, hvposition, Position.down_zero, ← hnext]
    rfl
  have hinside : t.Inside n [] w := ht.inside hpass.isFresh (by simpa using hwup) hwposition
  obtain ⟨second', z, gap', hsecond', hmore', hzup, hgap', -, hz, hzclean⟩ :=
    hx.exists_run_of_inside (.inl rfl) ht htclean (hpass.isClean hvclean) hinside hsecond
  have hended : x.Run flags z [] :=
    run_of_discarded hx.discardRule hz hzclean (by rw [hzup, List.append_nil]; exact hgap')
  refine ⟨first', second', hmore _ (hwrun _ ?_), hfirst', hsecond'⟩
  simpa using hmore' [] hended

end IsLineWise

end Lexicon

end Lexing
