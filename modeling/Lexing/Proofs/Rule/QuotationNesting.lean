import Lexing.Proofs.Rule.QuotationGrammar

/-!
# Nested quoted texts

Where inner delimiters are paired, a quoted text ends at the first place behind its opening
delimiter where more closing than opening delimiters have been seen. What stands before that place
is balanced. Without such a place the quoted text is not closed, and the same holds if a line that
it has to stay on ends before.

The depth of nesting is a number that is decreased at a closing delimiter only if it is positive.
A loop that stops where the depth would fall below zero does the same as the loop of the rule.

## Main definitions

* `Quotation.depthAfter?`, `Quotation.body?` : the loop that stops there.
* `Quotation.Closes` : the shortest text with more closing than opening delimiters.
* `Quotation.Balanced` : every delimiter is paired.

## Main results

* `Quotation.body?_eq` : the depth never falls below zero.
* `Quotation.closes_cons_iff`, `Quotation.BalancedAfter.cons` : one code point.
* `Quotation.exists_body_of_nested` : bodies.
* `Quotation.pairs_delimiters` : nested quoted texts.
-/

namespace Lexing.Quotation

open Scanner

variable {q : Quotation} {depth : Nat} {w p v : List Char} {c : Char} {s : Scanner}

/-! ### The depth of nesting -/

/-- The depth of nesting after the code point `c`, or nothing if it would fall below zero. -/
def depthAfter? (q : Quotation) (depth : Nat) (c : Char) : Option Nat :=
  if !q.nested then some depth
  else if c = q.opening then some (depth + 1)
  else if c = q.closing then
    match depth with
    | 0 => none
    | depth + 1 => some depth
  else some depth

/-- Consumes a quoted text after its opening delimiter as `body` does, but gives nothing where the
depth of nesting would fall below zero. -/
def body? (q : Quotation) (escapes : Scanner → Outcome) :
    Nat → Nat → Nat → Scanner → Option (Except Fault Scanner)
  | 0, _, _, s => some (.error (.endless s.position))
  | bound + 1, depth, length, s =>
    match s.current? with
    | none => some (.ok (s.reject .unterminatedString))
    | some c =>
      if c = q.closing ∧ depth = 0 then some (.ok s.skip)
      else if q.endsLine c then some (.ok (s.reject .unterminatedString))
      else if q.maxLength = some length then
        some (.ok (q.recover .skip (s.reject (.tooManyCharacters (length + 1)))))
      else if q.isEscape (some c) then
        match q.unescape escapes c s.skip with
        | .error fault => some (.error fault)
        | .ok t =>
          if s.draft.diagnostics.size < t.draft.diagnostics.size then some (.ok (q.recover .keep t))
          else body? q escapes bound depth (length + 1) t
      else
        (q.depthAfter? depth c).bind fun depth' => body? q escapes bound depth' (length + 1) s.keep

/-- The depth falls only at a closing delimiter, and not below zero if that does not end the text.
-/
theorem depthAfter?_eq (h : ¬(c = q.closing ∧ depth = 0)) :
    q.depthAfter? depth c = some (q.depthAfter depth c) := by
  unfold depthAfter? depthAfter
  split
  · rfl
  · split
    · rfl
    · split
      · rename_i hclosing
        obtain ⟨n, rfl⟩ := Nat.exists_eq_succ_of_ne_zero fun hzero => h ⟨hclosing, hzero⟩
        rfl
      · rfl

/-- The depth of nesting never falls below zero. -/
theorem body?_eq (q : Quotation) (escapes : Scanner → Outcome) (bound depth length : Nat)
    (s : Scanner) :
    q.body? escapes bound depth length s = some (q.body escapes bound depth length s) := by
  induction bound generalizing depth length s with
  | zero => rfl
  | succ bound ih =>
    rw [body?, body]
    cases s.current? with
    | none => rfl
    | some c =>
      dsimp only
      split
      · rfl
      · rename_i hclosing
        split
        · rfl
        · split
          · rfl
          · split
            · cases q.unescape escapes c s.skip with
              | error fault => rfl
              | ok t =>
                change (if _ then _ else _) = some (if _ then _ else _)
                split
                · rfl
                · exact ih depth (length + 1) t
            · rw [depthAfter?_eq hclosing]
              exact ih (q.depthAfter depth c) (length + 1) s.keep

/-! ### Where a quoted text is closed -/

/-- The text begins with `p`, which has more closing than opening delimiters even if as many opening
ones as `depth` stand before it, and no shorter beginning does. -/
structure Closes (q : Quotation) (depth : Nat) (text p : List Char) : Prop where
  begins : p <+: text
  excess : p.count q.opening + depth < p.count q.closing
  shortest : ∀ p', p' <+: text → p'.count q.opening + depth < p'.count q.closing →
    p.length ≤ p'.length

theorem Closes.unique {p' : List Char} (h : q.Closes depth w p) (h' : q.Closes depth w p') :
    p = p' := by
  have hle := h.shortest p' h'.begins h'.excess
  exact (List.prefix_of_prefix_length_le h.begins h'.begins hle).eq_of_length_le
    (h'.shortest p h.begins h.excess)

theorem ne_nil_of_excess (h : p.count q.opening + depth < p.count q.closing) : p ≠ [] := by
  rintro rfl
  exact Nat.not_lt_zero _ h

/-- A closing delimiter that is not paired closes the text. -/
theorem closes_closing (hne : q.opening ≠ q.closing) (w : List Char) :
    q.Closes 0 (q.closing :: w) [q.closing] :=
  ⟨⟨w, rfl⟩, by simp [hne.symm], fun _ _ h => List.length_pos_iff.mpr (ne_nil_of_excess h)⟩

/-- Any other code point changes the depth. -/
theorem excess_cons_iff (hnested : q.nested = true) (h : ¬(c = q.closing ∧ depth = 0)) :
    (c :: p).count q.opening + depth < (c :: p).count q.closing ↔
      p.count q.opening + q.depthAfter depth c < p.count q.closing := by
  have hne := q.ne_of_nested hnested
  rw [depthAfter, hnested, List.count_cons, List.count_cons]
  by_cases hopening : c = q.opening
  · simp [hopening, hne]
    omega
  · by_cases hclosing : c = q.closing
    · have hpos : depth ≠ 0 := fun hzero => h ⟨hclosing, hzero⟩
      simp [hclosing, hne.symm]
      omega
    · simp [hopening, hclosing]

/-- Where a text is closed is seen from the rest of the text and the depth there. -/
theorem closes_cons_iff (hnested : q.nested = true) (h : ¬(c = q.closing ∧ depth = 0)) :
    q.Closes depth (c :: w) p ↔ ∃ p', p = c :: p' ∧ q.Closes (q.depthAfter depth c) w p' := by
  have hexcess (p' : List Char) := excess_cons_iff (p := p') hnested h
  constructor
  · intro hp
    rcases List.prefix_cons_iff.mp hp.begins with rfl | ⟨p', rfl, hbegins⟩
    · exact absurd rfl (ne_nil_of_excess hp.excess)
    · refine ⟨p', rfl, hbegins, (hexcess p').mp hp.excess, fun p'' hp'' hmore => ?_⟩
      exact Nat.le_of_succ_le_succ (hp.shortest (c :: p'')
        (List.cons_prefix_cons.mpr ⟨rfl, hp''⟩) ((hexcess p'').mpr hmore))
  · rintro ⟨p', rfl, hp⟩
    refine ⟨List.cons_prefix_cons.mpr ⟨rfl, hp.begins⟩, (hexcess p').mpr hp.excess, ?_⟩
    intro p'' hp'' hmore
    rcases List.prefix_cons_iff.mp hp'' with rfl | ⟨p'', rfl, hbegins⟩
    · exact absurd rfl (ne_nil_of_excess hmore)
    · exact Nat.succ_le_succ (hp.shortest p'' hbegins ((hexcess p'').mp hmore))

/-! ### Balanced texts -/

/-- Every delimiter of the text is paired. -/
inductive Balanced (q : Quotation) : List Char → Prop
  | nil : Balanced q []
  | plain {c : Char} {v : List Char} (hopening : c ≠ q.opening) (hclosing : c ≠ q.closing)
      (h : Balanced q v) : Balanced q (c :: v)
  | pair {u v : List Char} (hu : Balanced q u) (hv : Balanced q v) :
      Balanced q (q.opening :: u ++ q.closing :: v)

/-- Every delimiter of the text is paired if as many opening ones as `depth` stand before it. -/
def BalancedAfter (q : Quotation) : Nat → List Char → Prop
  | 0, v => q.Balanced v
  | depth + 1, v => ∃ u v', v = u ++ q.closing :: v' ∧ q.Balanced u ∧ BalancedAfter q depth v'

/-- An opening delimiter is paired with one that pairs the depth behind it. -/
theorem BalancedAfter.pair {u : List Char} (hu : q.Balanced u) (hv : q.BalancedAfter depth v) :
    q.BalancedAfter depth (q.opening :: u ++ q.closing :: v) := by
  cases depth with
  | zero => exact .pair hu hv
  | succ depth =>
    obtain ⟨u', v', rfl, hu', hv'⟩ := hv
    exact ⟨q.opening :: u ++ q.closing :: u', v', by simp, .pair hu hu', hv'⟩

theorem BalancedAfter.plain (hopening : c ≠ q.opening) (hclosing : c ≠ q.closing)
    (hv : q.BalancedAfter depth v) : q.BalancedAfter depth (c :: v) := by
  cases depth with
  | zero => exact .plain hopening hclosing hv
  | succ depth =>
    obtain ⟨u, v', rfl, hu, hv'⟩ := hv
    exact ⟨c :: u, v', rfl, .plain hopening hclosing hu, hv'⟩

/-- A code point changes the depth behind which the rest is balanced. -/
theorem BalancedAfter.cons (hnested : q.nested = true) (h : ¬(c = q.closing ∧ depth = 0))
    (hv : q.BalancedAfter (q.depthAfter depth c) v) : q.BalancedAfter depth (c :: v) := by
  rw [depthAfter, hnested] at hv
  by_cases hopening : c = q.opening
  · rw [if_neg (by simp), if_pos hopening] at hv
    obtain ⟨u, v', rfl, hu, hv'⟩ := hv
    exact hopening ▸ .pair hu hv'
  · by_cases hclosing : c = q.closing
    · rw [if_neg (by simp), if_neg hopening, if_pos hclosing] at hv
      obtain ⟨n, rfl⟩ := Nat.exists_eq_succ_of_ne_zero fun hzero => h ⟨hclosing, hzero⟩
      exact ⟨[], v, by rw [hclosing]; rfl, .nil, hv⟩
    · rw [if_neg (by simp), if_neg hopening, if_neg hclosing] at hv
      exact .plain hopening hclosing hv

/-! ### Quoted texts -/

/-- The text does not extend over a line that the quoted text has to stay on. -/
def StaysOnLine (q : Quotation) (p : List Char) : Prop :=
  '\n' ∉ p ∨ q.multiline = true

theorem staysOnLine_cons_iff : q.StaysOnLine (c :: p) ↔ q.endsLine c = false ∧ q.StaysOnLine p := by
  rw [Bool.eq_false_iff, ne_eq, endsLine_eq_true_iff]
  cases hline : q.multiline <;> simp [StaysOnLine, hline, eq_comm]

/-- Without escapes and a greatest length, a body is closed where there are more closing than
opening delimiters, if it stays on its line up to there, and then it is balanced. Otherwise it is
reported. -/
theorem exists_body_of_nested (hnested : q.nested = true) (hline : q.closing ≠ '\n')
    (hescape : q.escape = none) (hmax : q.maxLength = none) (escapes : Scanner → Outcome)
    (bound depth length : Nat) (hbound : w.length < bound) (hup : s.upcoming.chars = w) :
    ∃ t, q.body escapes bound depth length s = .ok t ∧
      ((∃ p v, q.Closes depth w p ∧ q.StaysOnLine p ∧ p = v ++ [q.closing] ∧ s.Decodes p v t ∧
          q.BalancedAfter depth v) ∨
        (∀ p, q.Closes depth w p → ¬q.StaysOnLine p) ∧
          t.draft.diagnostics ≠ s.draft.diagnostics) := by
  induction bound generalizing w depth length s with
  | zero => exact absurd hbound (Nat.not_lt_zero _)
  | succ bound ih =>
    have hreport : (s.reject .unterminatedString).draft.diagnostics ≠ s.draft.diagnostics :=
      fun heq => by simpa [reject] using congrArg Array.size heq
    cases w with
    | nil =>
      have hc : s.current? = none := by rw [current?_eq, hup, List.head?_nil]
      refine ⟨_, by rw [body, hc], .inr ⟨fun p hp => ?_, hreport⟩⟩
      exact absurd (List.prefix_nil.mp hp.begins) (ne_nil_of_excess hp.excess)
    | cons c w =>
      have hc := current?_of_upcoming hup
      by_cases hclosing : c = q.closing ∧ depth = 0
      · obtain ⟨rfl, rfl⟩ := hclosing
        refine ⟨s.skip, by rw [body, hc]; exact if_pos ⟨rfl, rfl⟩, .inl ⟨[q.closing], [], ?_⟩⟩
        exact ⟨closes_closing (q.ne_of_nested hnested) w, .inl (by simpa using hline.symm), rfl,
          decodes_skip hc, .nil⟩
      · by_cases hbreak : q.endsLine c = true
        · refine ⟨s.reject .unterminatedString, ?_, .inr ⟨fun p hp hstays => ?_, hreport⟩⟩
          · rw [body, hc]
            dsimp only
            rw [if_neg hclosing, if_pos hbreak]
          · obtain ⟨p', rfl, -⟩ := (closes_cons_iff hnested hclosing).mp hp
            exact Bool.false_ne_true ((staysOnLine_cons_iff.mp hstays).1.symm.trans hbreak)
        · have hkeep := decodes_keep hc
          obtain ⟨t, ht, hends⟩ := ih (q.depthAfter depth c) (length + 1)
            (Nat.lt_of_succ_lt_succ hbound) (hkeep.upcoming_eq hup)
          refine ⟨t, ?_, ?_⟩
          · rw [body_of_keep hc hclosing hbreak (by simp [hmax]) (by simp [isEscape, hescape]), ht]
          · rw [Bool.not_eq_true] at hbreak
            rcases hends with ⟨p, v, hp, hstays, rfl, hdecodes, hv⟩ | ⟨hnone, hdiagnostics⟩
            · exact .inl ⟨c :: (v ++ [q.closing]), c :: v,
                (closes_cons_iff hnested hclosing).mpr ⟨_, rfl, hp⟩,
                staysOnLine_cons_iff.mpr ⟨hbreak, hstays⟩, rfl, hkeep.trans hdecodes,
                .cons hnested hclosing hv⟩
            · refine .inr ⟨fun p hp hstays => ?_, hkeep.diagnostics ▸ hdiagnostics⟩
              obtain ⟨p', rfl, hp'⟩ := (closes_cons_iff hnested hclosing).mp hp
              exact hnone p' hp' (staysOnLine_cons_iff.mp hstays).2

/-- Let inner delimiters be paired. Then the depth of nesting never falls below zero, whatever is
read. Let there be no escapes and no greatest length, and let the closing delimiter be no line feed.
Where a token begins with an opening delimiter before `w`, the rule matches. Nothing is reported if,
and only if, `w` begins with more closing than opening delimiters, and stays on its line up to the
first place where it does. The literal is then the text up to there, and the value is what stands
between the outer delimiters, which is balanced. -/
theorem pairs_delimiters (q : Quotation) (hnested : q.nested = true) :
    (∀ escapes bound depth length s,
      q.body? escapes bound depth length s = some (q.body escapes bound depth length s)) ∧
    (q.closing ≠ '\n' → q.escape = none → q.maxLength = none →
      ∀ (escapes : List Rule) (flags : Flags) (s : Scanner) (w : List Char), s.IsFresh →
        s.upcoming.chars = q.opening :: w →
        ∃ t, (Rule.quotation q escapes).eval flags s = .ok (true, t) ∧
          (t.draft.diagnostics = #[] ↔ ∃ p, q.Closes 0 w p ∧ q.StaysOnLine p) ∧
          ∀ p, q.Closes 0 w p → q.StaysOnLine p →
            s.Consumes (q.opening :: p) t ∧ t.draft.literal = q.opening :: p ∧
              ∃ v, p = v ++ [q.closing] ∧ t.draft.value = Utf8.encode v ∧ q.Balanced v) := by
  refine ⟨body?_eq q, fun hline hescape hmax escapes flags s w hs hup => ?_⟩
  obtain ⟨u, bound, hopening, hup', hbound, hempty, -, hclean, hscan⟩ :=
    exists_opened (Rule.evalFirst flags escapes) hs hup
  obtain ⟨t, ht, hends⟩ := exists_body_of_nested hnested hline hescape hmax
    (Rule.evalFirst flags escapes) bound 0 0 hbound hup'
  refine ⟨t, hscan t ht, ?_⟩
  rcases hends with ⟨p, v, hp, hstays, rfl, hdecodes, hv⟩ | ⟨hnone, hreport⟩
  · refine ⟨⟨fun _ => ⟨_, hp, hstays⟩, fun _ => hdecodes.diagnostics.trans hclean⟩, ?_⟩
    rintro p' hp' -
    obtain rfl := hp.unique hp'
    have hconsumes := hopening.trans hdecodes.consumes
    refine ⟨hconsumes, ?_, v, rfl, ?_, hv⟩
    · rw [hconsumes.literal, hs.1]
      rfl
    · rw [hdecodes.value, hempty, List.nil_append]
  · refine ⟨⟨fun hnothing => absurd (hnothing.trans hclean.symm) hreport, ?_⟩, ?_⟩
    · rintro ⟨p, hp, hstays⟩
      exact absurd hstays (hnone p hp)
    · exact fun p hp hstays => absurd hstays (hnone p hp)

/-- Brackets as delimiters that are paired. -/
def bracketSample : Quotation :=
  { between '[' ']' with nested := true, ne_of_nested := by decide }

/-- A source with brackets inside brackets, and one more behind them. -/
def nestedSample : ByteSource :=
  { reads := [.bytes [0x5B, 0x61, 0x5B, 0x5B, 0x5D, 0x5D, 0x62, 0x5D, 0x5D]] }

/-- The quoted text ends with the bracket that pairs the first one. -/
theorem pairs_delimiters_nestedSample :
    bracketSample.nested = true ∧ (ofSource "f" nestedSample).IsFresh ∧
      bracketSample.Closes 0 "a[[]]b]]".toList "a[[]]b]".toList ∧
      ∃ t, (Rule.quotation bracketSample []).eval .off (ofSource "f" nestedSample) =
          .ok (true, t) ∧ t.draft.diagnostics = #[] ∧ t.draft.literal = "[a[[]]b]".toList ∧
        t.draft.value = Utf8.encode "a[[]]b".toList ∧ bracketSample.Balanced "a[[]]b".toList := by
  have hcloses : bracketSample.Closes 0 "a[[]]b]]".toList "a[[]]b]".toList := by
    refine ⟨⟨"]".toList, rfl⟩, by decide, fun p hp hexcess => ?_⟩
    have hshorter : ∀ n < 7, ¬(("a[[]]b]]".toList.take n).count '[' <
        ("a[[]]b]]".toList.take n).count ']') := by decide
    by_contra hlt
    refine hshorter p.length (Nat.lt_of_not_le hlt) ?_
    rw [← List.prefix_iff_eq_take.mp hp]
    exact hexcess
  have hfresh := isFresh_ofSource "f" nestedSample
  obtain ⟨t, heval, hclean, hall⟩ := (pairs_delimiters bracketSample rfl).2 (by decide) rfl rfl []
    .off (ofSource "f" nestedSample) "a[[]]b]]".toList hfresh rfl
  have hstays : bracketSample.StaysOnLine "a[[]]b]".toList := .inl (by decide)
  obtain ⟨-, hliteral, v, hv, hvalue, hbalanced⟩ := hall _ hcloses hstays
  obtain rfl : "a[[]]b".toList = v :=
    List.append_cancel_right (hv : "a[[]]b".toList ++ [']'] = v ++ [']'])
  exact ⟨rfl, hfresh, hcloses, t, heval, hclean.mpr ⟨_, hcloses, hstays⟩, hliteral, hvalue,
    hbalanced⟩

end Lexing.Quotation
