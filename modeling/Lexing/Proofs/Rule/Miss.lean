import Lexing.Proofs.Rule.BuiltIn

/-!
# Rules that do not match

At the beginning of a draft, a built-in rule that does not match leaves the scanner showing what it
showed before: a number may have moved over a sign, a lead and a decimal separator, but it takes
everything back. So each rule of a group is tried as if it were the first one, and the group comes
to what the first rule comes to that matches on its own.

Within a draft the same holds only of rules that try no number. A number that fails goes back to the
beginning of the draft and takes text back that others have consumed. If a suffix of a number tries
another number in vain, the number before it is lost.

## Main definitions

* `Scanner.Reachable` : the scanners that come up in a scan.
* `Rule.firstOutcome` : the outcome of the first rule that matches on its own.

## Main results

* `Scanner.Reachable.isFresh` : an empty draft begins at the current position.
* `Rule.alike_firstOutcome` : rules that are tried in order.
* `Rule.view_rewindIf_iff` : what a rule that does not match leaves within a draft.
-/

namespace Lexing

open Scanner

/-! ### Reachable scanners -/

/-- The scanners that operations and built-in rules lead to from the beginning of a text. -/
inductive Scanner.Reachable : Scanner → Prop
  | ofStream (name : String) (input : CharStream) : Reachable (ofStream name input)
  | perform {o : Operation} {s t : Scanner} {reply : Reply} (h : Reachable s)
      (ho : o.perform s = .ok (reply, t)) : Reachable t
  | setPreviousKind {s : Scanner} (h : Reachable s) (kind : String) :
      Reachable (s.setPreviousKind kind)
  | eval {r : Rule} {flags : Flags} {s t : Scanner} {matched : Bool} (h : Reachable s)
      (hr : r.IsBuiltIn) (ht : r.eval flags s = .ok (matched, t)) : Reachable t

theorem Scanner.Reachable.isPlaced {s : Scanner} (h : s.Reachable) : s.IsPlaced := by
  induction h with
  | ofStream name input => exact (isFresh_ofStream name input).isPlaced
  | perform _ ho ih => exact Operation.isPlaced_perform ih ho
  | setPreviousKind _ _ ih => exact ih
  | @eval r flags s t matched _ hr ht ih => exact (hr.revises_eval flags s _ _ ht).isPlaced ih

/-- An empty draft begins at the current position. -/
theorem Scanner.Reachable.isFresh {s : Scanner} (h : s.Reachable) (hdraft : s.draft = {}) :
    s.IsFresh :=
  h.isPlaced.isFresh hdraft

namespace Rule

variable {labels : String → Prop} {flags : Flags} {r : Rule} {rules : List Rule} {s t : Scanner}

/-! ### At the beginning of a draft -/

/-- A rule that does not match at the beginning of a draft takes back what it has done. -/
theorem Gives.restores_of_miss_of_isFresh (h : r.Gives labels) (hs : s.IsFresh)
    (ht : r.eval flags s = .ok (false, t)) : s.Restores t := by
  have hmiss := h.restores_of_miss ht
  cases hn : r.triesNumber with
  | false => rwa [hn] at hmiss
  | true =>
    rw [hn] at hmiss
    exact ((Consumes.refl s).restores_rewind hs).trans hmiss

/-- The rule does not match if it is tried on its own. -/
def misses (flags : Flags) (s : Scanner) (r : Rule) : Bool :=
  match r.eval flags s with
  | .ok (false, _) => true
  | _ => false

/-- The outcome of the first rule that matches if it is tried on its own. A fault counts as well. -/
def firstOutcome (flags : Flags) (rules : List Rule) (s : Scanner) : Outcome :=
  match rules.find? fun r => !r.misses flags s with
  | some r => r.eval flags s
  | none => .ok (false, s)

/-- Rules in order come to what the first rule comes to that matches on its own. -/
theorem alike_firstOutcome (h : ∀ r ∈ rules, r.Gives labels) (hs : s.IsFresh) (hst : s.Alike t) :
    Outcome.Alike (firstOutcome flags rules s) (evalFirst flags rules t) := by
  -- The induction follows the scanner `t` to which the rules before have led.
  induction rules generalizing t with
  | nil => exact .ok ⟨rfl, hst⟩
  | cons r rs ih =>
    have hr := h r List.mem_cons_self
    have halike := hr.alike_eval flags hst
    rw [evalFirst_cons]
    generalize ho : r.eval flags s = o at halike
    generalize r.eval flags t = o' at halike ⊢
    rcases halike with fault | @⟨⟨_, u⟩, ⟨matched, v⟩, rfl, huv⟩
    · have hfirst : firstOutcome flags (r :: rs) s = .error fault := by
        simp [firstOutcome, misses, ho]
      rw [hfirst]
      exact .error fault
    · cases matched with
      | true =>
        have hfirst : firstOutcome flags (r :: rs) s = .ok (true, u) := by
          simp [firstOutcome, misses, ho]
        rw [hfirst]
        exact .ok ⟨rfl, huv⟩
      | false =>
        have hfirst : firstOutcome flags (r :: rs) s = firstOutcome flags rs s := by
          simp [firstOutcome, misses, ho]
        rw [hfirst]
        have hmiss := alike_iff_view.mpr (hr.restores_of_miss_of_isFresh hs ho).view
        exact ih (fun r hr => h r (List.mem_cons_of_mem _ hr)) (hmiss.trans huv)

theorem revises_firstOutcome (h : ∀ r ∈ rules, r.Gives labels) (flags : Flags) (s : Scanner) :
    Outcome.Revises labels s (firstOutcome flags rules s) := by
  unfold firstOutcome
  split
  · rename_i r hr
    exact (h r (List.mem_of_find?_eq_some hr)).revises_eval flags s
  · intro matched t ht
    obtain ⟨-, rfl⟩ := Prod.mk.inj (Except.ok.inj ht)
    exact .refl s

/-- At the beginning of a draft, a built-in rule that does not match leaves a scanner that shows the
same as before and an empty draft. A group comes to what the first rule comes to that matches on its
own. If the byte source does not fail, no sequence of operations can tell the scanners apart. -/
theorem miss_restores_draft_start (hs : s.Reachable) (hdraft : s.draft = {}) (flags : Flags) :
    (∀ (r : Rule) (t : Scanner), r.IsBuiltIn → r.eval flags s = .ok (false, t) →
      t.current? = s.current? ∧ t.following? = s.following? ∧ (∀ i, t.peek? i = s.peek? i) ∧
        t.position = s.position ∧ t.start = s.start ∧ t.draft = {} ∧
        (s.IsClean → ∀ os, t.transcript os = s.transcript os)) ∧
    ∀ rules, (∀ r ∈ rules, r.IsBuiltIn) →
      Outcome.Alike (firstOutcome flags rules s) ((group rules).eval flags s) ∧
        (s.IsClean → ∀ matched t u, firstOutcome flags rules s = .ok (matched, t) →
          (group rules).eval flags s = .ok (matched, u) →
          ∀ os, u.transcript os = t.transcript os) := by
  have hfresh := hs.isFresh hdraft
  constructor
  · intro r t hr ht
    have hrestores := hr.restores_of_miss_of_isFresh hfresh ht
    have halike := alike_iff_view.mpr hrestores.view
    exact ⟨halike.current?_eq, halike.following?_eq, halike.peek?_eq, halike.position,
      halike.start, halike.draft.trans hdraft,
      fun hclean => halike.transcript_eq hclean (hrestores.isClean hclean)⟩
  · intro rules hrules
    have halike : Outcome.Alike (firstOutcome flags rules s) ((group rules).eval flags s) :=
      alike_firstOutcome hrules hfresh (.refl s)
    refine ⟨halike, fun hclean matched t u ht hu => ?_⟩
    have htclean := (revises_firstOutcome hrules flags s _ _ ht).isClean hclean
    have huclean := ((Gives.group hrules).revises_eval flags s _ _ hu).isClean hclean
    rw [ht, hu] at halike
    obtain ⟨-, htu⟩ : PairAlike (matched, t) (matched, u) := by
      cases halike with
      | ok h => exact h
    exact htu.transcript_eq htclean huclean

theorem isBuiltIn_number (f : Numeral) {lead : Option Rule} {suffixes : List Rule}
    (hlead : ∀ r ∈ lead, r.IsBuiltIn) (hsuffixes : ∀ r ∈ suffixes, r.IsBuiltIn) :
    (number f lead suffixes).IsBuiltIn :=
  .number ⟨trivial, trivial, fun _ _ => trivial⟩ hlead hsuffixes

/-- A single literal. -/
def word (text : String) : Rule :=
  literal { words := .ofWords [text] }

theorem isBuiltIn_word (text : String) : (word text).IsBuiltIn :=
  .literal fun _ _ => trivial

/-- A source with a sign and the lead of a hexadecimal number, but no digit. -/
def leadSample : ByteSource :=
  { reads := [.bytes [0x2B, 0x30, 0x78, 0x79]] }

/-- Signed hexadecimal numbers with a lead. -/
def ledNumber : Rule :=
  number Numeral.hexadecimal.signed (some (word "0x")) []

theorem isBuiltIn_ledNumber : ledNumber.IsBuiltIn := by
  refine isBuiltIn_number _ ?_ (by simp)
  rintro r ⟨rfl⟩
  exact isBuiltIn_word "0x"

/-- A sign and a lead are taken back, so that a rule for the sign alone matches after them. -/
theorem miss_restores_leadSample :
    ∃ s t u, s = ofStream "f" (.ofSource leadSample) ∧ ledNumber.eval .off s = .ok (false, t) ∧
      t.current? = some '+' ∧ t.position = s.position ∧ t.draft = {} ∧
      (group [ledNumber, word "+"]).eval .off s = .ok (true, u) ∧ u.literalText = "+" ∧
      Outcome.Alike ((word "+").eval .off s) (.ok (true, u)) := by
  obtain ⟨t, ht⟩ : ∃ t, ledNumber.eval .off (ofStream "f" (.ofSource leadSample)) =
      .ok (false, t) := ⟨_, rfl⟩
  obtain ⟨u, hu, hliteral⟩ : ∃ u, (group [ledNumber, word "+"]).eval .off
      (ofStream "f" (.ofSource leadSample)) = .ok (true, u) ∧ u.literalText = "+" :=
    ⟨_, rfl, rfl⟩
  obtain ⟨hmiss, hgroup⟩ :=
    miss_restores_draft_start (.ofStream "f" (.ofSource leadSample)) rfl .off
  obtain ⟨hcurrent, -, -, hposition, -, hdraft, -⟩ := hmiss ledNumber t isBuiltIn_ledNumber ht
  have hfirst := (hgroup [ledNumber, word "+"]
    (by simp [isBuiltIn_ledNumber, isBuiltIn_word])).1
  rw [hu] at hfirst
  exact ⟨_, t, u, rfl, ht, hcurrent, hposition, hdraft, hu, hliteral, hfirst⟩

/-! ### Within a draft -/

/-- Rewinding a draft that has consumed text does not go unnoticed. -/
theorem view_rewindIf_iff {b : Bool} (hs : s.draft.literal ≠ [])
    (h : (s.rewindIf b).Restores t) : t.view = s.view ↔ b = false := by
  rcases b with _ | _
  · exact iff_of_true h.view rfl
  · refine iff_of_false (fun hview => hs ?_) Bool.noConfusion
    have hdraft : s.rewind.draft = s.draft := congrArg View.draft (h.view.symm.trans hview)
    rw [← hdraft]
    rfl

/-- A number without suffixes that matches has consumed text. -/
theorem literal_ne_nil_of_number {f : Numeral} {lead : Option Rule} (hf : f.Labels labels)
    (h : (number f lead []).eval flags s = .ok (true, t)) : t.draft.literal ≠ [] := by
  obtain ⟨u, found, -, hseen, ht⟩ := Numeral.exists_of_match h
  obtain ⟨-, rfl⟩ := Prod.mk.inj (Except.ok.inj ht)
  obtain ⟨w, hw, hne⟩ := Numeral.reads_core hf u
  have hliteral := (hw.setKind? hf.2.2).consumes.literal
  rw [hliteral]
  exact List.append_ne_nil_of_right_ne_nil _ ((hne hseen).resolve_left Bool.false_ne_true)

/-- Suffixes are tried where the number without suffixes ends. -/
theorem eval_number_of_suffixes {f : Numeral} {lead : Option Rule} {suffixes : List Rule}
    {u : Scanner} {found : Bool} (hu : (number f lead []).eval flags s = .ok (true, u))
    (ht : evalFirst flags suffixes u = .ok (found, t)) :
    (number f lead suffixes).eval flags s = .ok (true, t) := by
  obtain ⟨v, _, hlead, hseen, hv⟩ := Numeral.exists_of_match hu
  obtain ⟨-, rfl⟩ := Prod.mk.inj (Except.ok.inj hv)
  unfold Numeral.core at hseen ht
  simp [eval_number, Numeral.scan, hlead, hseen, ht, bind, Except.bind, pure, Except.pure]

/-- Within a draft that has consumed text, a built-in rule that does not match leaves the scanner
showing what it showed before if, and only if, the rule tries no number. A rule that does takes the
scanner to the beginning of the draft. So a number whose suffixes do not match ends where the number
without suffixes ends if, and only if, no suffix tries a number. -/
theorem view_of_miss (flags : Flags) (s : Scanner) :
    (s.draft.literal ≠ [] → ∀ (r : Rule) (t : Scanner), r.IsBuiltIn →
      r.eval flags s = .ok (false, t) →
      (t.view = s.view ↔ r.triesNumber = false) ∧
        (r.triesNumber = true → t.view = s.rewind.view)) ∧
    ∀ (f : Numeral) (lead : Option Rule) (suffixes : List Rule) (t u : Scanner),
      (number f lead suffixes).IsBuiltIn →
      (number f lead []).eval flags s = .ok (true, u) →
      evalFirst flags suffixes u = .ok (false, t) →
      (number f lead suffixes).eval flags s = .ok (true, t) ∧
        (t.view = u.view ↔ ∀ r ∈ suffixes, r.triesNumber = false) := by
  constructor
  · intro hs r t hr ht
    have hmiss := hr.restores_of_miss ht
    refine ⟨view_rewindIf_iff hs hmiss, fun hn => ?_⟩
    rw [hn] at hmiss
    exact hmiss.view
  · rintro f lead suffixes t u (_ | _ | _ | @⟨_, _, _, hf, -, hsuffixes⟩) hu ht
    have hmiss : (u.rewindIf (anyTriesNumber suffixes)).Restores t :=
      (Gives.group hsuffixes).restores_of_miss ht
    exact ⟨eval_number_of_suffixes hu ht,
      (view_rewindIf_iff (literal_ne_nil_of_number hf hu) hmiss).trans anyTriesNumber_eq_false⟩

/-- A source of two digits. -/
def digitSample : ByteSource :=
  { reads := [.bytes [0x31, 0x32]] }

/-- A suffix that is a number with a sign. -/
def numberSuffix : Rule :=
  number Numeral.integer.signed none []

theorem isBuiltIn_numberSuffix : numberSuffix.IsBuiltIn :=
  isBuiltIn_number _ (by simp) (by simp)

/-- A literal that does not stand after a number leaves the number as it is. -/
theorem view_of_miss_digitSample :
    ∃ s t u, s = ofStream "f" (.ofSource digitSample) ∧
      (number Numeral.integer none []).eval .off s = .ok (true, u) ∧ u.draft.literal ≠ [] ∧
      (word "u").eval .off u = .ok (false, t) ∧ t.view = u.view ∧
      (number Numeral.integer none [word "u"]).eval .off s = .ok (true, t) := by
  have hnumber : IsBuiltIn (number Numeral.integer none [word "u"]) :=
    isBuiltIn_number _ (by simp) (by simp [isBuiltIn_word])
  obtain ⟨u, hu, hliteral⟩ : ∃ u, (number Numeral.integer none []).eval .off
      (ofStream "f" (.ofSource digitSample)) = .ok (true, u) ∧ u.draft.literal = ['1', '2'] :=
    ⟨_, rfl, rfl⟩
  have hne : u.draft.literal ≠ [] := hliteral ▸ List.cons_ne_nil _ _
  obtain ⟨t, ht⟩ : ∃ t, (word "u").eval .off u = .ok (false, t) := by
    obtain ⟨-, rfl⟩ := Prod.mk.inj (Except.ok.inj hu)
    exact ⟨_, rfl⟩
  have hfirst : evalFirst .off [word "u"] u = .ok (false, t) := by
    rw [evalFirst_cons, ht]
    rfl
  have hview := ((view_of_miss .off u).1 hne (word "u") t (isBuiltIn_word "u") ht).1.mpr rfl
  have hend := ((view_of_miss .off _).2 _ none _ t u hnumber hu hfirst).1
  exact ⟨_, t, u, rfl, hu, hne, ht, hview, hend⟩

/-- A number that is tried in vain as the suffix of another number takes the digits back that were
consumed before it. -/
theorem number_lost_to_suffix :
    ∃ s t u, s = ofStream "f" (.ofSource digitSample) ∧ u.Reachable ∧ numberSuffix.IsBuiltIn ∧
      (number Numeral.integer none []).eval .off s = .ok (true, u) ∧
      u.literalText = "12" ∧ u.current? = none ∧
      numberSuffix.eval .off u = .ok (false, t) ∧ t.literalText = "" ∧ t.current? = some '1' ∧
      (number Numeral.integer none [numberSuffix]).eval .off s = .ok (true, t) := by
  have hdigits : IsBuiltIn (number Numeral.integer none []) :=
    isBuiltIn_number _ (by simp) (by simp)
  obtain ⟨u, hu⟩ : ∃ u, (number Numeral.integer none []).eval .off
      (ofStream "f" (.ofSource digitSample)) = .ok (true, u) := ⟨_, rfl⟩
  have hreachable : u.Reachable := .eval (.ofStream "f" _) hdigits hu
  obtain ⟨-, rfl⟩ := Prod.mk.inj (Except.ok.inj hu)
  exact ⟨_, _, _, rfl, hreachable, isBuiltIn_numberSuffix, rfl, rfl, rfl, rfl, rfl, rfl, rfl⟩

end Rule

end Lexing
