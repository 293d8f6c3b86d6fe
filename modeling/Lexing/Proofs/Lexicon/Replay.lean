import Lexing.Proofs.Lexicon.Hook
import Lexing.Proofs.Lexicon.Line
import Lexing.Proofs.Rule.NumeralReplay

/-!
# Lexicons that find their tokens again

The literals of the tokens of a text, with a blank between each two of them, are a text of their
own. Where all rules replay, a lexicon makes the same tokens of it, provided that it had nothing to
report about the first text: each literal is cut out at its blank as it was cut out before, and what
was dropped between the tokens has gone. The hook sees the same tokens after the same kinds.

## Main definitions

* `spaced` : the literals of tokens, each after a blank.
* `Lexicon.IsRepeatable` : what a lexicon needs to find its tokens again.

## Main results

* `Lexicon.IsRepeatable.exists_read`, `Lexicon.IsRepeatable.exists_next` : one token.
* `Lexicon.IsRepeatable.exists_run` : all tokens.
-/

namespace Lexing

open Scanner

/-! ### Literals with blanks between them -/

/-- The literals of tokens, each after a blank. -/
def spaced (tokens : List Token) : List Char :=
  tokens.flatMap fun token => ' ' :: token.literal.toList

theorem spaced_cons (token : Token) (tokens : List Token) :
    spaced (token :: tokens) = ' ' :: (token.literal.toList ++ spaced tokens) :=
  List.flatMap_cons ..

theorem isParted_spaced (tokens : List Token) : IsParted (spaced tokens) := by
  cases tokens with
  | nil => exact .inl rfl
  | cons token tokens => exact .inr (by rw [spaced_cons, List.head?_cons])

/-- Literals with a blank between each two of them have no blank before the first one. -/
theorem toList_intercalate_literals (tokens : List Token) :
    (" ".intercalate (tokens.map (·.literal))).toList = (spaced tokens).tail := by
  rw [String.toList_intercalate]
  induction tokens with
  | nil => rfl
  | cons token tokens ih =>
    rw [spaced_cons, List.tail_cons]
    cases tokens with
    | nil => simp [spaced]
    | cons next tokens =>
      rw [List.map_cons, List.map_cons, List.map_cons, List.map_cons] at *
      rw [List.intercalate_cons_cons, ih, spaced_cons, List.tail_cons]
      simp

namespace Scanner

variable {s t u : Scanner} {k : CharClass}

theorem isIn_whileIn_discard (hs : s.IsFresh) (k : CharClass) :
    (s.whileIn k .discard).isIn k = false := by
  have hup : (s.whileIn k .discard).upcoming.chars = s.upcoming.chars.dropWhile k.contains := by
    have hgap := (passes_whileIn_discard k hs).upcoming
    nth_rewrite 1 [← List.takeWhile_append_dropWhile (p := k.contains) (l := s.upcoming.chars)]
      at hgap
    exact (List.append_cancel_left hgap).symm
  have hhead := List.head?_dropWhile_not k.contains s.upcoming.chars
  rw [isIn, Scanner.current?_eq, hup]
  split at hhead
  · rename_i c hc
    rw [hc]
    exact hhead
  · rename_i hnone
    rw [hnone]
    rfl

theorem whileIn_of_not_isIn (m : Move) (h : s.isIn k = false) : s.whileIn k m = s := by
  rw [whileIn]
  cases s.upcoming.chars with
  | nil => rfl
  | cons c cs => exact if_neg (Bool.eq_false_iff.mp h)

/-- The value of a draft about which nothing is reported is well-formed. -/
theorem isSome_decode?_of_diagnostics (h : s.checkValue.draft.diagnostics = #[]) :
    (Utf8.decode? s.draft.value).isSome = true := by
  by_contra hvalue
  rw [checkValue, if_neg hvalue] at h
  exact absurd h Array.push_ne_empty

/-- The report of a failure is a diagnostic. -/
theorem reports_eq_nil (h : ∀ token ∈ s.reports, token.diagnostics = []) : s.reports = [] := by
  rw [reports] at h ⊢
  cases hf : s.failure with
  | none => rfl
  | some report =>
    rw [hf] at h
    exact absurd (h _ List.mem_cons_self) (by simp [emitFailure])

end Scanner

namespace Lexicon

variable {x : Lexicon} {flags : Flags} {p : Profile} {v rest rest' : List Char} {s t u : Scanner}
  {tokens : List Token}

/-- All rules replay, blanks are discarded, and what the hook makes of a token depends on its kind,
its value and its literal. -/
structure IsRepeatable (x : Lexicon) (flags : Flags) (p : Profile) : Prop where
  fits : x.Fits flags p
  discardRule : x.discardRule = none
  rules : ∀ r ∈ x.rules, r.Replays flags
  blank : x.discards.contains ' ' = true
  isMild : p.IsMild
  repeats : ∀ {t u : Token}, t.Repeats u → ∀ previous,
    (p.finish previous t).Repeats (p.finish previous u)
  diagnostics : ∀ {previous token}, (p.finish previous token).isBlank = false →
    (p.finish previous token).diagnostics = token.diagnostics

namespace IsRepeatable

/-- The text of one token is read the same, unless something is reported or nothing made of it. -/
theorem exists_read (hx : x.IsRepeatable flags p) (hrest : IsParted rest') (hs : s.IsFresh)
    (ht : t.IsFresh) (hv : v ≠ []) (h : s.Shadows v rest rest' t) (hread : x.read flags s = .ok u)
    (hstay : u.upcoming.chars = rest) (hclean : u.draft.diagnostics = #[])
    (hmade : ¬(u.draft.value = [] ∧ u.draft.kind = "")) :
    ∃ u', x.read flags t = .ok u' ∧ u.Shadows [] rest rest' u' := by
  obtain ⟨⟨found, a⟩, ha, hu⟩ := exists_of_bind_eq_ok hread
  cases found with
  | true =>
    obtain rfl : a = u := Except.ok.inj hu
    obtain ⟨u', hu', hshadows⟩ :=
      Rule.replays_evalFirst hx.fits.rules hx.rules hrest hs ht hv h ha hstay hclean hmade
    exact ⟨u', by rw [read, hu']; rfl, hshadows⟩
  | false =>
    -- Nothing has matched, so that a code point was reported as unexpected.
    have hsound := Rule.sound_evalFirst hx.fits.rules hs
    rw [ha] at hsound
    cases hsound with
    | missed hmissed =>
      have hdraft : a.draft = {} := (congrArg View.draft hmissed.view).trans hs.1
      cases hend : a.atEnd with
      | true =>
        obtain rfl : a = u := by simpa [hend] using hu
        exact absurd (by rw [hdraft]; exact ⟨rfl, rfl⟩) hmade
      | false =>
        obtain rfl : a.keepUnexpected = u := by simpa [hend] using hu
        rw [keepUnexpected, diagnostics_keep] at hclean
        exact absurd hclean Array.push_ne_empty

/-- A token about which nothing is reported is found again where its literal stands, if a blank or
nothing comes next. -/
theorem exists_next (hx : x.IsRepeatable flags p) (hs : s.IsFresh) (ht : t.IsFresh)
    (hprevious : t.previousKind = s.previousKind)
    (hend : (s.whileIn x.discards .discard).atEnd = false)
    (hread : x.read flags (s.whileIn x.discards .discard) = .ok u) {token : Token}
    (htoken : p.finish s.previousKind u.checkValue.assembled = token)
    (hblank : token.isBlank = false) (hclean : token.diagnostics = []) (hrest : IsParted rest')
    (hup : t.upcoming.chars = token.literal.toList ++ rest') :
    ∃ token' t', x.next flags t = .ok (token', t') ∧ token.Repeats token' ∧
      t'.previousKind = kindAfter s.previousKind token ∧ t'.upcoming.chars = rest' ∧
      t'.IsFresh ∧ (t.IsClean → t'.IsClean) := by
  subst htoken
  have hgap := passes_whileIn_discard x.discards hs
  have hout := isIn_whileIn_discard hs x.discards
  generalize s.whileIn x.discards .discard = a at hend hread hgap hout
  obtain ⟨w, u', hread', hw, hconsumes, -⟩ := hx.fits.exists_read hgap.isFresh hend
  obtain rfl : u = u' := Except.ok.inj (hread.symm.trans hread')
  -- The draft is the token: nothing is to be reported about its value.
  have hdiagnostics := (hx.diagnostics hblank).symm.trans hclean
  have hvalue := isSome_decode?_of_diagnostics (Array.toList_eq_nil_iff.mp hdiagnostics)
  have hsame : u.checkValue = u := if_pos hvalue
  obtain ⟨-, -, -, -, hliteral, -⟩ := hconsumes.exists_emit hgap.isFresh hw
  rw [(hx.fits.finish _ _ hblank).1, hliteral, String.toList_ofList] at hup
  have hmade : ¬(u.draft.value = [] ∧ u.draft.kind = "") := fun h => by
    have hdropped := isBlank_assembled.mpr h
    rw [hx.isMild.finish_of_isBlank hdropped, hdropped] at hblank
    exact Bool.noConfusion hblank
  rw [hsame] at hblank hdiagnostics ⊢
  have hshadows : a.Shadows w u.upcoming.chars rest' t :=
    ⟨hconsumes.upcoming, hup, by rw [ht.1, hgap.isFresh.1], by rw [hgap.isFresh.1]⟩
  -- Nothing is discarded before the literal.
  have hstay : t.whileIn x.discards .discard = t := by
    refine whileIn_of_not_isIn _ ?_
    rw [← hout, isIn, isIn, Scanner.current?_eq, Scanner.current?_eq, hup, hconsumes.upcoming,
      List.head?_append_of_ne_nil _ hw, List.head?_append_of_ne_nil _ hw]
  have hend' : (t.whileIn x.discards .discard).atEnd = false := by
    rw [hstay, Scanner.atEnd_eq, hup]
    simp [hw]
  obtain ⟨v, hv, huv⟩ := hx.exists_read hrest hgap.isFresh ht hw hshadows hread rfl
    (Array.toList_eq_nil_iff.mp hdiagnostics) hmade
  obtain ⟨w', v', hv', hw', hconsumes', -⟩ := hx.fits.exists_read ht (hstay ▸ hend')
  obtain rfl : v = v' := Except.ok.inj (hv.symm.trans hv')
  have hpass := (hconsumes'.passes_renew ht hw').2
  have hsame' : v.checkValue = v := if_pos (huv.draft ▸ hvalue)
  have hrepeats := hx.repeats huv.repeats_assembled s.previousKind
  have hnext := hx.fits.next_of_read hx.discardRule ht hend' (hstay.symm ▸ hv)
  rw [hsame', hprevious, hrepeats.isBlank_eq, hblank, if_neg Bool.false_ne_true,
    accept_eq_kindAfter, hpass.previousKind, hprevious] at hnext
  refine ⟨_, _, hnext, hrepeats, ?_, ?_, hpass.isFresh, hpass.isClean⟩
  · rw [kindAfter, kindAfter, ← hrepeats.kind]
    rfl
  · rw [renew_eq]
    exact huv.replayed

/-- A run goes on behind the blank before a token. -/
theorem exists_passes_blank (hx : x.IsRepeatable flags p) (hs : s.IsFresh)
    (hup : s.upcoming.chars = spaced tokens) :
    ∃ gap t, s.Passes gap t ∧ t.upcoming.chars = (spaced tokens).tail ∧
      ∀ more, x.Run flags t more → x.Run flags s more := by
  obtain ⟨gap, hsplit, hgap⟩ : ∃ gap, s.upcoming.chars = gap ++ (spaced tokens).tail ∧
      ∀ c ∈ gap, x.discards.contains c = true := by
    rw [hup]
    cases tokens with
    | nil => exact ⟨[], rfl, List.forall_mem_nil _⟩
    | cons token tokens =>
      refine ⟨[' '], by rw [spaced_cons]; rfl, ?_⟩
      rw [List.forall_mem_singleton]
      exact hx.blank
  exact ⟨gap, hx.fits.exists_passes_discarded hx.discardRule hs hsplit hgap⟩

/-- The literals of all tokens, with blanks between them, give the same tokens, if nothing was
reported about them. -/
theorem exists_run (hx : x.IsRepeatable flags p) (hs : s.IsFresh) (ht : t.IsFresh)
    (htclean : t.IsClean) (hprevious : t.previousKind = s.previousKind)
    (hrun : x.Run flags s tokens) (hclean : ∀ token ∈ tokens, token.diagnostics = [])
    (hup : t.upcoming.chars = (spaced tokens).tail) :
    ∃ tokens', x.Run flags t tokens' ∧ List.Forall₂ Token.Repeats tokens tokens' := by
  generalize hn : s.upcoming.chars.length = n
  induction n using Nat.strongRecOn generalizing s t tokens with
  | ind n ih =>
    have hgap := passes_whileIn_discard x.discards hs
    by_cases hend : (s.whileIn x.discards .discard).atEnd = true
    · obtain rfl := hrun.unique (hx.fits.run_of_atEnd hx.discardRule hs hend)
      rw [reports_eq_nil hclean] at hup ⊢
      refine ⟨[], run_of_discarded hx.discardRule ht htclean ?_, .nil⟩
      rw [hup]
      exact List.forall_mem_nil _
    · rw [Bool.not_eq_true] at hend
      obtain ⟨w, u, hread, hw, hconsumes, hmade⟩ := hx.fits.exists_read hgap.isFresh hend
      have hpass := (hconsumes.passes_renew hgap.isFresh hw).2
      have hlt : u.renew.upcoming.chars.length < n := hn ▸ hgap.length_lt hpass hw
      have hnext := hx.fits.next_of_read hx.discardRule hs hend hread
      have hkind : u.renew.previousKind = s.previousKind :=
        hpass.previousKind.trans hgap.previousKind
      have hmore := hx.isMild.isEnd_finish hmade s.previousKind
      generalize htoken : p.finish s.previousKind u.checkValue.assembled = token at hnext hmore
      cases hblank : token.isBlank with
      | true =>
        -- What was dropped has left nothing behind.
        rw [if_pos hblank] at hnext
        exact ih _ hlt hpass.isFresh ht htclean (hprevious.trans hkind.symm)
          (hrun.of_ifMoved hnext) hclean hup rfl
      | false =>
        rw [hblank, if_neg Bool.false_ne_true, accept_eq_kindAfter, hkind] at hnext
        obtain ⟨rest, rfl, hrest⟩ := hrun.of_next hnext hmore
        obtain ⟨hreport, hclean⟩ := List.forall_mem_cons.mp hclean
        rw [spaced_cons, List.tail_cons] at hup
        obtain ⟨token', t', hnext', hrepeats, hkind', hup', hfresh, hclean'⟩ :=
          hx.exists_next hs ht hprevious hend hread htoken hblank hreport (isParted_spaced rest) hup
        obtain ⟨gap, t'', hpass', hup'', hrun'⟩ := hx.exists_passes_blank hfresh hup'
        have hfresh' : (u.renew.setPreviousKind (kindAfter s.previousKind token)).IsFresh :=
          hpass.isFresh
        obtain ⟨tokens', htokens, hall⟩ := ih _ hlt hfresh' hpass'.isFresh
          (hpass'.isClean (hclean' htclean)) (hpass'.previousKind.trans hkind') hrest hclean hup'' rfl
        exact ⟨token' :: tokens', .token hnext' (hrepeats.isEnd_eq.trans hmore) (hrun' _ htokens),
          .cons hrepeats hall⟩

end IsRepeatable

end Lexicon

end Lexing
