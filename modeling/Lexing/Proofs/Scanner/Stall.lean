import Lexing.Proofs.Scanner.Operation

/-!
# When emitting fails

A scanner counts the tokens that were emitted with an empty literal, and fails to emit one more
after `maxStalls` of them. A token with a literal and the end of the text begin a new count, and the
report of a failure of the byte source is left out of it. Discarding is not seen: it consumes text
without putting it into a literal, and the count goes on.

So an emission that fails has `maxStalls` emissions with empty literals before it. They stand where
the last one stands if, and only if, no text was released after the first of them. As their literals
are empty, only discarding can have released any.

## Main definitions

* `Scanner.Leads` : operations that lead from one scanner to another without a fault.
* `Scanner.emissions` : the scanners at which operations emit tokens.

## Main results

* `Operation.stalls_perform` : what one operation does to the count.
* `Scanner.Leads.exists_silent` : what was emitted since the count began.
* `Scanner.Leads.position_iff` : whether emissions with empty literals stand in one place.
* `Scanner.Leads.released_eq_nil` : emissions with empty literals release nothing.
* `Scanner.exists_of_emit_error` : what came before an emission that fails.
-/

namespace Lexing

/-- The scanner at which the operation emits a token, if it does. -/
def Operation.emissions : Operation → Scanner → List Scanner
  | emit, s => [s]
  | _, _ => []

theorem Operation.mem_emissions {o : Operation} {s v : Scanner} :
    v ∈ o.emissions s ↔ o = emit ∧ v = s := by
  cases o <;> simp [emissions]

namespace Scanner

/-- The scanners at which operations emit tokens, one after another, up to a fault. -/
def emissions : List Operation → Scanner → List Scanner
  | [], _ => []
  | o :: os, s =>
    match o.perform s with
    | .ok (_, t) => o.emissions s ++ t.emissions os
    | .error _ => o.emissions s

/-- The operations lead from `s` to `t` without a fault. -/
def Leads (s : Scanner) (os : List Operation) (t : Scanner) : Prop :=
  ∃ replies, s.performAll os = .ok (replies, t)

variable {name : String} {text gone : List Char} {os os' : List Operation} {o : Operation}
  {reply : Reply} {s t u v : Scanner}

/-! ### Sequences of operations -/

theorem Leads.nil (s : Scanner) : s.Leads [] s :=
  ⟨[], rfl⟩

theorem Leads.cons (ho : o.perform s = .ok (reply, t)) (h : t.Leads os u) :
    s.Leads (o :: os) u := by
  obtain ⟨replies, h⟩ := h
  refine ⟨reply :: replies, ?_⟩
  simp [performAll, ho, h, bind, Except.bind, pure, Except.pure]

theorem Leads.of_cons (h : s.Leads (o :: os) u) :
    ∃ reply t, o.perform s = .ok (reply, t) ∧ t.Leads os u := by
  obtain ⟨replies, h⟩ := h
  obtain ⟨reply, rest, t, -, ho, hrest⟩ := performAll_cons h
  exact ⟨reply, t, ho, rest, hrest⟩

theorem Leads.eq_of_nil (h : s.Leads [] t) : t = s := by
  obtain ⟨replies, h⟩ := h
  exact (Prod.mk.inj (Except.ok.inj h)).2.symm

theorem Leads.trans (h : s.Leads os t) (h' : t.Leads os' u) : s.Leads (os ++ os') u := by
  induction os generalizing s with
  | nil =>
    obtain rfl := h.eq_of_nil
    exact h'
  | cons o os ih =>
    obtain ⟨reply, v, ho, hrest⟩ := h.of_cons
    exact (ih hrest).cons ho

theorem emissions_cons (ho : o.perform s = .ok (reply, t)) (os : List Operation) :
    s.emissions (o :: os) = o.emissions s ++ t.emissions os := by
  rw [emissions, ho]

theorem released_cons (ho : o.perform s = .ok (reply, t)) (os : List Operation) :
    s.released (o :: os) = o.releases s ++ t.released os := by
  rw [released, ho]

/-! ### The count -/

/-- What is checked before a token is made does not touch the count and the position. -/
theorem frame_checkValue_setKind? (s : Scanner) (kind : Option String) :
    (s.setKind? kind).checkValue.stalls = s.stalls ∧
      (s.setKind? kind).checkValue.position = s.position := by
  rcases (s.setKind? kind).checkValue_eq with h | ⟨problem, h⟩ <;> rw [h] <;>
    cases kind <;> exact ⟨rfl, rfl⟩

/-- Emitting fails for an empty literal only, after as many tokens as are allowed. -/
theorem stalls_of_emit_error {fault : Fault} (h : s.emit = .error fault) :
    s.draft.literal = [] ∧ maxStalls ≤ s.stalls ∧
      fault = .stalled s.position (s.stalls + 1) := by
  have hliteral : s.draft.literal = [] := by
    by_contra hne
    rw [emit_of_literal_ne_nil hne] at h
    cases h
  have draft_case (kind : Option String) (h : (s.setKind? kind).emitDraft = .error fault) :
      maxStalls ≤ s.stalls ∧ fault = .stalled s.position (s.stalls + 1) := by
    obtain ⟨hstalls, hposition⟩ := s.frame_checkValue_setKind? kind
    rw [emitDraft_eq, countStall, hstalls, hposition] at h
    split at h
    · cases h
    · split at h
      · rename_i hlimit
        exact ⟨Nat.le_of_lt_succ hlimit, (Except.error.inj h).symm⟩
      · cases h
  refine ⟨hliteral, ?_⟩
  unfold emit at h
  split at h
  · split at h
    · cases h
    · split at h
      · exact draft_case (some Kind.endOfText) h
      · exact draft_case none h
  · exact draft_case none h

/-- Emitting begins a new count, or the literal is empty and the count goes on by at most one. -/
theorem stalls_of_emit {token : Token} (h : s.emit = .ok (token, t)) :
    t.stalls = 0 ∨ s.draft.literal = [] ∧ t.stalls ≤ s.stalls + 1 := by
  by_cases hliteral : s.draft.literal = []
  · rcases emit_cases h with ⟨report, hr⟩ | ⟨kind, hk⟩
    · obtain ⟨-, rfl⟩ := Prod.mk.inj hr
      exact .inr ⟨hliteral, Nat.le_succ s.stalls⟩
    · rw [emitDraft_eq, countStall, (s.frame_checkValue_setKind? kind).1] at hk
      split at hk
      · obtain ⟨-, rfl⟩ := Prod.mk.inj (Except.ok.inj hk)
        exact .inl rfl
      · split at hk
        · cases hk
        · obtain ⟨-, rfl⟩ := Prod.mk.inj (Except.ok.inj hk)
          exact .inr ⟨hliteral, Nat.le_refl _⟩
  · rw [emit_of_literal_ne_nil hliteral] at h
    obtain ⟨-, rfl⟩ := Prod.mk.inj (Except.ok.inj h)
    exact .inl rfl

end Scanner

open Scanner

/-- An operation begins a new count, or the count grows by at most the tokens that it emits with
empty literals. -/
theorem Operation.stalls_perform {o : Operation} {reply : Reply} {s t : Scanner}
    (ho : o.perform s = .ok (reply, t)) :
    t.stalls = 0 ∨ t.stalls ≤ s.stalls + (o.emissions s).length ∧
      ∀ v ∈ o.emissions s, v.draft.literal = [] := by
  have kept (h : t.stalls = s.stalls) (hnone : o.emissions s = []) :
      t.stalls = 0 ∨ t.stalls ≤ s.stalls + (o.emissions s).length ∧
        ∀ v ∈ o.emissions s, v.draft.literal = [] := by
    rw [hnone, h]
    exact .inr ⟨Nat.le_refl _, fun _ hv => absurd hv List.not_mem_nil⟩
  rcases o with m | c | b | kind | problem | _ | i
  case emit =>
    cases he : s.emit with
    | error f => simp [perform, he, Except.map] at ho
    | ok p =>
      simp only [perform, he, Except.map, Except.ok.injEq, Prod.mk.injEq] at ho
      obtain ⟨-, rfl⟩ := ho
      refine (stalls_of_emit he).imp_right fun hstall => ⟨hstall.2, fun v hv => ?_⟩
      rw [List.mem_singleton.mp hv]
      exact hstall.1
  all_goals obtain ⟨-, rfl⟩ := Prod.mk.inj (Except.ok.inj ho)
  case move =>
    refine kept ?_ rfl
    rcases m with _ | _ | _ | _
    · exact s.consumes_keep.stalls
    · exact s.consumes_skip.stalls
    · change s.discard.stalls = _
      unfold Scanner.discard
      split <;> simp [restart]
    · rfl
  case peek => exact kept (s.consumes_peek i).stalls rfl
  all_goals exact kept rfl rfl

namespace Scanner

variable {name : String} {text gone : List Char} {os os' : List Operation} {o : Operation}
  {reply : Reply} {s t u v : Scanner}

/-- Since the count began, at least as many tokens were emitted as it says, all of them with empty
literals. -/
theorem Leads.exists_silent (h : s.Leads os t) :
    (t.stalls ≤ s.stalls + (s.emissions os).length ∧ ∀ v ∈ s.emissions os, v.draft.literal = []) ∨
      ∃ earlier later u, os = earlier ++ later ∧ s.Leads earlier u ∧ u.Leads later t ∧
        t.stalls ≤ (u.emissions later).length ∧ ∀ v ∈ u.emissions later, v.draft.literal = [] := by
  induction os generalizing s with
  | nil =>
    obtain rfl := h.eq_of_nil
    exact .inl ⟨Nat.le_refl _, fun _ hv => absurd hv List.not_mem_nil⟩
  | cons o os ih =>
    obtain ⟨reply, u, ho, hrest⟩ := h.of_cons
    rcases ih hrest with ⟨hle, hsilent⟩ | ⟨earlier, later, v, rfl, hearlier, hlater, hrecent⟩
    · rcases o.stalls_perform ho with hzero | ⟨hstep, hstill⟩
      -- The count begins after this operation.
      · rw [hzero, Nat.zero_add] at hle
        exact .inr ⟨[o], os, u, rfl, (Leads.nil u).cons ho, hrest, hle, hsilent⟩
      · rw [emissions_cons ho, List.length_append]
        refine .inl ⟨by omega, fun w hw => ?_⟩
        exact (List.mem_append.mp hw).elim (hstill w) (hsilent w)
    · exact .inr ⟨o :: earlier, later, v, rfl, hearlier.cons ho, hlater, hrecent⟩

/-- The last emissions of a sequence of operations, as many as are asked for. -/
theorem Leads.exists_last (h : s.Leads os t) {n : Nat} (hn : n < (s.emissions os).length) :
    ∃ earlier later u, os = earlier ++ .emit :: later ∧ s.Leads earlier u ∧
      u.Leads (.emit :: later) t ∧ (u.emissions (.emit :: later)).length = n + 1 ∧
      ∀ v ∈ u.emissions (.emit :: later), v ∈ s.emissions os := by
  induction os generalizing s with
  | nil => exact absurd hn (Nat.not_lt_zero n)
  | cons o os ih =>
    obtain ⟨reply, u, ho, hrest⟩ := h.of_cons
    by_cases hmore : n < (u.emissions os).length
    · obtain ⟨earlier, later, v, rfl, hearlier, hlater, hlength, hmem⟩ := ih hrest hmore
      refine ⟨o :: earlier, later, v, rfl, hearlier.cons ho, hlater, hlength, fun w hw => ?_⟩
      rw [emissions_cons ho]
      exact List.mem_append_right _ (hmem w hw)
    · rw [emissions_cons ho, List.length_append] at hn
      -- The first operation has to emit the token that is missing in the rest.
      obtain rfl : o = .emit := by
        have hpos : 0 < (o.emissions s).length := by omega
        obtain ⟨v, hv⟩ := List.length_pos_iff_exists_mem.mp hpos
        exact (Operation.mem_emissions.mp hv).1
      refine ⟨[], os, s, rfl, .nil s, h, ?_, fun _ => id⟩
      rw [Operation.emissions, List.length_singleton] at hn
      rw [emissions_cons ho, List.length_append, Operation.emissions, List.length_singleton]
      omega

/-! ### Places of emissions -/

/-- Before each emission, a part of what operations release was released. -/
theorem Leads.divides_of_mem (h : s.Leads os t) (hs : Divides name text gone s)
    (hv : v ∈ s.emissions os) :
    ∃ w, w <+: s.released os ∧ Divides name text (gone ++ w) v := by
  induction os generalizing s gone with
  | nil => exact absurd hv List.not_mem_nil
  | cons o os ih =>
    obtain ⟨reply, u, ho, hrest⟩ := h.of_cons
    rw [emissions_cons ho] at hv
    rw [released_cons ho]
    rcases List.mem_append.mp hv with hv | hv
    · obtain ⟨-, rfl⟩ := Operation.mem_emissions.mp hv
      exact ⟨[], List.nil_prefix, by rwa [List.append_nil]⟩
    · obtain ⟨w, hw, hdivides⟩ := ih hrest (Operation.divides_perform hs ho) hv
      exact ⟨o.releases s ++ w, List.prefix_append_right_inj _ |>.mpr hw,
        by rwa [← List.append_assoc]⟩

theorem Divides.leads (h : Divides name text gone s) (hos : s.Leads os t) :
    Divides name text (gone ++ s.released os) t := by
  obtain ⟨replies, hos⟩ := hos
  exact h.performAll hos

/-- Emissions with empty literals, from the first operation on, stand where the scanner stands in
the end if, and only if, the operations have released nothing. A text as long as the range of the
numbers of a position could lead back to it. -/
theorem Leads.position_iff (h : s.Leads (.emit :: os) t) (hs : Divides name text gone s)
    (hsilent : ∀ v ∈ s.emissions (.emit :: os), v.draft.literal = [])
    (ht : t.draft.literal = []) (hshort : (s.released (.emit :: os)).length < UInt32.size) :
    (∀ v ∈ s.emissions (.emit :: os), v.position = t.position) ↔
      s.released (.emit :: os) = [] := by
  have place {v : Scanner} {w : List Char} (hv : Divides name text (gone ++ w) v)
      (hliteral : v.draft.literal = []) : v.position = (Position.after name gone).advanceAll w := by
    rw [hv.position_eq, hliteral, List.append_nil, Position.advanceAll_after]
  have hend := place (hs.leads h) ht
  constructor
  · intro hall
    obtain ⟨reply, u, ho, -⟩ := h.of_cons
    have hfirst : s ∈ s.emissions (.emit :: os) := by
      rw [emissions_cons ho]
      exact List.mem_append_left _ (List.mem_singleton.mpr rfl)
    have hstart : s.position = .after name gone := by
      rw [hs.position_eq, hsilent s hfirst, List.append_nil]
    by_contra hne
    exact (Position.after name gone).advanceAll_ne hne hshort
      (hend.symm.trans ((hall s hfirst).symm.trans hstart))
  · intro hnone v hv
    obtain ⟨w, hw, hdivides⟩ := h.divides_of_mem hs hv
    rw [hnone] at hw hend
    obtain rfl := List.prefix_nil.mp hw
    exact (place hdivides (hsilent v hv)).trans hend.symm

/-- Emissions with empty literals release nothing, so that only discarding can release text. -/
theorem Leads.released_eq_nil (h : s.Leads os t)
    (hsilent : ∀ v ∈ s.emissions os, v.draft.literal = []) (hos : .move .discard ∉ os) :
    s.released os = [] := by
  induction os generalizing s with
  | nil => rfl
  | cons o os ih =>
    obtain ⟨reply, u, ho, hrest⟩ := h.of_cons
    rw [emissions_cons ho] at hsilent
    obtain ⟨hfirst, hrestSilent⟩ := List.forall_mem_append.mp hsilent
    obtain ⟨hne, hos⟩ := not_or.mp (mt List.mem_cons.mpr hos)
    have hnone : o.releases s = [] := by
      rcases o with m | c | b | kind | problem | _ | i
      case move =>
        rcases m with _ | _ | _ | _
        case discard => exact absurd rfl hne
        all_goals rfl
      case emit => exact hfirst s (Operation.mem_emissions.mpr ⟨rfl, rfl⟩)
      all_goals rfl
    rw [released_cons ho, hnone, List.nil_append, ih hrest hrestSilent hos]

/-- An emission that fails has as many emissions before it as are allowed, all with empty literals.
Unless a text as long as the range of the numbers of a position was released, they stand where it
stands if, and only if, nothing was released from the first of them on, which is so if no operation
among them discards. -/
theorem exists_of_emit_error (name : String) (input : CharStream) {fault : Fault}
    (h : (ofStream name input).Leads os s) (hfault : s.emit = .error fault) :
    ∃ earlier later u, os = earlier ++ .emit :: later ∧ (ofStream name input).Leads earlier u ∧
      u.Leads (.emit :: later) s ∧ (u.emissions (.emit :: later)).length = maxStalls ∧
      (∀ v ∈ u.emissions (.emit :: later), v.draft.literal = []) ∧
      ((u.released (.emit :: later)).length < UInt32.size →
        ((∀ v ∈ u.emissions (.emit :: later), v.position = s.position) ↔
          u.released (.emit :: later) = [])) ∧
      (.move .discard ∉ later → u.released (.emit :: later) = []) := by
  obtain ⟨hliteral, hstalls, -⟩ := stalls_of_emit_error hfault
  have hzero : (ofStream name input).stalls = 0 := by simp [ofStream]
  obtain ⟨earlier, later, u, rfl, hearlier, hlater, hle, hsilent⟩ : ∃ earlier later u,
      os = earlier ++ later ∧ (ofStream name input).Leads earlier u ∧ u.Leads later s ∧
        s.stalls ≤ (u.emissions later).length ∧ ∀ v ∈ u.emissions later, v.draft.literal = [] := by
    rcases h.exists_silent with ⟨hle, hsilent⟩ | hrecent
    · rw [hzero, Nat.zero_add] at hle
      exact ⟨[], os, _, rfl, .nil _, h, hle, hsilent⟩
    · exact hrecent
  have hcount : maxStalls - 1 < (u.emissions later).length := by
    rw [maxStalls] at hstalls ⊢
    omega
  obtain ⟨before, after, v, rfl, hbefore, hafter, hlength, hmem⟩ := hlater.exists_last hcount
  have hsilent' := fun w hw => hsilent w (hmem w hw)
  have hdivides := ((Divides.ofStream name input).leads hearlier).leads hbefore
  refine ⟨earlier ++ before, after, v, (List.append_assoc ..).symm, hearlier.trans hbefore, hafter,
    hlength, hsilent', hafter.position_iff hdivides hsilent' hliteral, fun hnone => ?_⟩
  exact hafter.released_eq_nil hsilent' (by simpa using hnone)

end Scanner

end Lexing
