import Lexing.Proofs.Lexicon.Lookahead
import Lexing.Proofs.Rule.Functions

/-!
# Procedures

A procedure acts on a scanner by its operations, and it decides by what these give back and by what
the scanner shows. Trying rules and scanning tokens are such operations as well, if the functions of
the user that take part are procedures.

How far the byte source was decoded is hidden from procedures: from equivalent scanners a procedure
comes to the same result and to equivalent scanners again, or to the same fault. So do the calls of
a token stream.

## Main definitions

* `Lexicon.Consults` : the functions of the user within a lexicon.
* `Scanner.IsProcedure` : the computations that are made of operations.
* `Scanner.IsBlind` : the computation does the same to equivalent scanners.
* `TokenStream.transcript` : all that a sequence of calls lets one observe.

## Main results

* `Scanner.IsProcedure.isBlind` : procedures do the same to equivalent scanners.
* `TokenStream.Matches.transcript_eq` : token streams over equivalent scanners cannot be told apart.
-/

namespace Lexing

open Scanner

variable {α β : Type} {x : Lexicon} {flags : Flags} {s t : Scanner}

/-! ### Definitions -/

/-- The function is one of those that the user has put into the lexicon. -/
inductive Lexicon.Consults (x : Lexicon) :
    {α : Type} → (Scanner → Except Fault (α × Scanner)) → Prop
  | rule {run : Flags → Scanner → Outcome} (h : run ∈ Rule.functionsOfAll x.rules)
      (flags : Flags) : Consults x (run flags)
  | discardRule {run : Flags → Scanner → Outcome} (h : run ∈ Rule.functionsOfLead x.discardRule)
      (flags : Flags) : Consults x (run flags)
  | beforeToken (flags : Flags) : Consults x fun s => (x.beforeToken flags s).map ((), ·)
  | afterToken (flags : Flags) (token : Token) : Consults x (x.afterToken flags token)
  | noMatch (flags : Flags) : Consults x fun s => (x.noMatch flags s).map ((), ·)

namespace Scanner

/-- The computation acts on a scanner by operations alone, and it decides by what they give and by
what the scanner shows. -/
inductive IsProcedure : {α : Type} → (Scanner → Except Fault (α × Scanner)) → Prop
  | done {α : Type} (a : α) : IsProcedure fun s => .ok (a, s)
  | fail {α : Type} (fault : Fault) :
      IsProcedure fun _ => (.error fault : Except Fault (α × Scanner))
  | view : IsProcedure fun s => .ok (s.view, s)
  | perform (o : Operation) : IsProcedure o.perform
  | setPreviousKind (kind : String) : IsProcedure fun s => .ok ((), s.setPreviousKind kind)
  | whileIn (k : CharClass) (m : Move) : IsProcedure fun s => .ok ((), s.whileIn k m)
  | untilIn (k : CharClass) (m : Move) : IsProcedure fun s => .ok ((), s.untilIn k m)
  | times (n : Nat) (m : Move) : IsProcedure fun s => .ok ((), s.times n m)
  | eval {r : Rule} (h : ∀ run ∈ r.functions, ∀ flags, IsProcedure (run flags)) (flags : Flags) :
      IsProcedure (r.eval flags)
  | next {x : Lexicon} (h : ∀ {α : Type} (f : Scanner → Except Fault (α × Scanner)),
      x.Consults f → IsProcedure f) (flags : Flags) : IsProcedure (x.next flags)
  | bind {α β : Type} {f : Scanner → Except Fault (α × Scanner)}
      {g : α → Scanner → Except Fault (β × Scanner)} (hf : IsProcedure f)
      (hg : ∀ a, IsProcedure (g a)) : IsProcedure fun s => f s >>= fun (a, t) => g a t

/-- The results are equal and the scanners are equivalent. -/
def Agree (p q : α × Scanner) : Prop :=
  q.1 = p.1 ∧ p.2.Equivalent q.2

/-- The computation does the same to equivalent scanners. -/
def IsBlind (f : Scanner → Except Fault (α × Scanner)) : Prop :=
  ∀ s t, s.Equivalent t → Corresponds Agree (f s) (f t)

end Scanner

/-- Every function that the user has put into the lexicon is a procedure. -/
def Lexicon.IsProcedural (x : Lexicon) : Prop :=
  ∀ {α : Type} (f : Scanner → Except Fault (α × Scanner)), x.Consults f → IsProcedure f

theorem Corresponds.map_iff {α' β' : Type} {R : α' → β' → Prop} {x : Except Fault α}
    {y : Except Fault β} {f : α → α'} {g : β → β'} :
    Corresponds R (x.map f) (y.map g) ↔ Corresponds (fun a b => R (f a) (g b)) x y := by
  rcases x with _ | a <;> rcases y with _ | b
  · exact ⟨fun | .error fault => .error fault, fun | .error fault => .error fault⟩
  · exact ⟨nofun, nofun⟩
  · exact ⟨nofun, nofun⟩
  · exact ⟨fun | .ok h => .ok h, fun | .ok h => .ok h⟩

theorem Corresponds.mono {R R' : α → β → Prop} {x : Except Fault α} {y : Except Fault β}
    (h : Corresponds R x y) (hR : ∀ a b, R a b → R' a b) : Corresponds R' x y := by
  cases h with
  | error fault => exact .error fault
  | ok h => exact .ok (hR _ _ h)

/-! ### Operations -/

namespace Scanner

namespace Equivalent

theorem view_eq (h : s.Equivalent t) : t.view = s.view := by
  have htext : t.upcoming.chars = s.upcoming.chars := h.text
  rw [view, view, htext, h.eq]

theorem setPreviousKind (h : s.Equivalent t) (kind : String) :
    (s.setPreviousKind kind).Equivalent (t.setPreviousKind kind) := by
  refine ⟨?_, h.text, h.ending⟩
  conv_lhs => rw [h.eq]
  rfl

theorem apply (h : s.Equivalent t) (m : Move) : (m.apply s).Equivalent (m.apply t) := by
  cases m with
  | keep => exact h.keep
  | skip => exact h.skip
  | discard => exact h.discard
  | rewind => exact h.rewind

theorem times (h : s.Equivalent t) (n : Nat) (m : Move) :
    (s.times n m).Equivalent (t.times n m) := by
  induction n generalizing s t with
  | zero => exact h
  | succ n ih => exact ih (h.apply m)

theorem moveWhile (h : s.Equivalent t) (p : Char → Bool) (m : Move) :
    (moveWhile p m s.upcoming.chars s).Equivalent (moveWhile p m t.upcoming.chars t) := by
  rw [show t.upcoming.chars = s.upcoming.chars from h.text]
  generalize s.upcoming.chars = bound
  induction bound generalizing s t with
  | nil => exact h
  | cons b bound ih =>
    rw [Scanner.moveWhile, Scanner.moveWhile, h.current?_eq]
    split
    · exact ih (h.apply m)
    · exact h

end Equivalent

theorem isCongruence_equivalent : IsCongruence Equivalent where
  upcoming h := h.text
  position h := congrArg View.position h.view_eq
  draft h := congrArg View.draft h.view_eq
  setKind h kind := h.withDraft fun d => { d with kind }
  pushChar h c := h.withDraft (·.pushChar c)
  pushByte h b := h.withDraft (·.pushByte b)
  reject h problem := h.reject problem
  keep h := h.keep
  skip h := h.skip
  rewind h := h.rewind

theorem isBlind_perform (o : Operation) : IsBlind o.perform := by
  intro s t h
  rcases o.equivalent_perform h with ⟨fault, hs, ht⟩ | ⟨reply, s', t', hs, ht, h'⟩
  · rw [hs, ht]
    exact .error fault
  · rw [hs, ht]
    exact .ok ⟨rfl, h'⟩

theorem isBlind_emit : IsBlind emit := by
  intro s t h
  have hperform := isBlind_perform .emit s t h
  rw [Operation.perform, Operation.perform, Corresponds.map_iff] at hperform
  exact hperform.mono fun p q hpq => ⟨Reply.token.inj hpq.1, hpq.2⟩

theorem isBlind_eval {r : Rule} (h : ∀ run ∈ r.functions, ∀ flags, IsBlind (run flags))
    (flags : Flags) : IsBlind (r.eval flags) :=
  r.related_eval isCongruence_equivalent fun run hrun => h run hrun flags

end Scanner

/-! ### Lexicons -/

namespace Lexicon

theorem agree_accept (token : Token) (h : s.Equivalent t) :
    Agree (accept token s) (accept token t) := by
  refine ⟨rfl, ?_⟩
  rw [accept, accept]
  split
  · exact h
  · exact h.setPreviousKind token.kind

variable (hx : ∀ {α : Type} (f : Scanner → Except Fault (α × Scanner)), x.Consults f → IsBlind f)

include hx

theorem isBlind_skipDiscardsWithin (flags : Flags) (bound : Nat) :
    IsBlind (x.skipDiscardsWithin flags bound) := by
  intro s t hst
  induction bound generalizing s t with
  | zero =>
    rw [skipDiscardsWithin, skipDiscardsWithin, isCongruence_equivalent.position hst]
    exact .error _
  | succ bound ih =>
    have hmoved : (s.whileIn x.discards .discard).Equivalent (t.whileIn x.discards .discard) :=
      hst.moveWhile x.discards.contains .discard
    rw [skipDiscardsWithin, skipDiscardsWithin]
    generalize s.whileIn x.discards .discard = u at hmoved ⊢
    generalize t.whileIn x.discards .discard = v at hmoved ⊢
    cases hrule : x.discardRule with
    | none => exact .ok ⟨rfl, hmoved⟩
    | some r =>
      have heval : IsBlind (r.eval flags) := isBlind_eval (fun run hrun flags =>
        hx _ (.discardRule (by rwa [hrule]) flags)) flags
      refine (heval u v hmoved).bind ?_
      rintro ⟨_, u'⟩ ⟨matched, v'⟩ ⟨rfl, hmatched⟩
      cases matched with
      | false => exact .ok ⟨rfl, hmatched⟩
      | true =>
        refine (isBlind_emit u' v' hmatched).bind ?_
        rintro ⟨_, u''⟩ ⟨token, v''⟩ ⟨rfl, hemitted⟩
        dsimp only
        rw [isCongruence_equivalent.position hemitted, isCongruence_equivalent.position hmoved]
        split
        · exact .ok ⟨rfl, hemitted⟩
        · split
          · exact .error _
          · exact ih u'' v'' hemitted

theorem isBlind_scanToken (flags : Flags) : IsBlind (x.scanToken flags) := by
  intro s t hst
  have hfinish (u v : Scanner) (h : u.Equivalent v) : Corresponds Agree
      (u.emit >>= fun emitted => x.afterToken flags emitted.1 emitted.2)
      (v.emit >>= fun emitted => x.afterToken flags emitted.1 emitted.2) := by
    refine (isBlind_emit u v h).bind ?_
    rintro ⟨_, u'⟩ ⟨token, v'⟩ ⟨rfl, h'⟩
    exact hx _ (.afterToken flags token) u' v' h'
  have hbefore := Corresponds.map_iff.mp (hx _ (.beforeToken flags) s t hst)
  refine hbefore.bind ?_
  rintro u v ⟨-, huv⟩
  have hrules := Rule.related_evalFirst isCongruence_equivalent x.rules
    (fun run hrun => hx _ (.rule hrun flags)) u v huv
  refine hrules.bind ?_
  rintro ⟨_, u'⟩ ⟨matched, v'⟩ ⟨rfl, hmatched⟩
  dsimp only
  rw [isCongruence_equivalent.atEnd_eq hmatched]
  split
  · exact hfinish u' v' hmatched
  · have hnoMatch := Corresponds.map_iff.mp (hx _ (.noMatch flags) u' v' hmatched)
    exact hnoMatch.bind fun u v h => hfinish u v h.2

theorem isBlind_nextWithin (flags : Flags) (bound : Nat) :
    IsBlind (x.nextWithin flags bound) := by
  intro s t hst
  induction bound generalizing s t with
  | zero =>
    rw [nextWithin, nextWithin, isCongruence_equivalent.position hst]
    exact .error _
  | succ bound ih =>
    have hskip := isBlind_skipDiscardsWithin hx flags s.allowance s t hst
    rw [nextWithin, nextWithin, skipDiscards, skipDiscards,
      isCongruence_equivalent.allowance_eq hst]
    refine hskip.bind ?_
    rintro ⟨_, u⟩ ⟨_ | token, v⟩ ⟨rfl, huv⟩
    · dsimp only
      rw [isCongruence_equivalent.atEnd_eq huv]
      split
      · exact isBlind_emit u v huv
      · refine (isBlind_scanToken hx flags u v huv).bind ?_
        rintro ⟨_, u'⟩ ⟨token, v'⟩ ⟨rfl, hscanned⟩
        dsimp only
        rw [isCongruence_equivalent.position hscanned, isCongruence_equivalent.position huv]
        split
        · exact .ok (agree_accept token hscanned)
        · split
          · exact .error _
          · exact ih u' v' hscanned
    · exact .ok (agree_accept token huv)

/-- Scanning a token does the same to equivalent scanners if the functions of the user do. -/
theorem isBlind_next (flags : Flags) : IsBlind (x.next flags) := by
  intro s t hst
  rw [next, next, isCongruence_equivalent.allowance_eq hst]
  exact isBlind_nextWithin hx flags s.allowance s t hst

end Lexicon

/-- Procedures do the same to equivalent scanners. -/
theorem Scanner.IsProcedure.isBlind {f : Scanner → Except Fault (α × Scanner)}
    (h : IsProcedure f) : IsBlind f := by
  induction h with
  | done a => exact fun s t hst => .ok ⟨rfl, hst⟩
  | fail fault => exact fun s t hst => .error fault
  | view => exact fun s t hst => .ok ⟨hst.view_eq, hst⟩
  | perform o => exact isBlind_perform o
  | setPreviousKind kind => exact fun s t hst => .ok ⟨rfl, hst.setPreviousKind kind⟩
  | whileIn k m => exact fun s t hst => .ok ⟨rfl, hst.moveWhile k.contains m⟩
  | untilIn k m => exact fun s t hst => .ok ⟨rfl, hst.moveWhile (fun c => !k.contains c) m⟩
  | times n m => exact fun s t hst => .ok ⟨rfl, hst.times n m⟩
  | eval _ flags ih => exact isBlind_eval ih flags
  | next _ flags ih => exact Lexicon.isBlind_next ih flags
  | bind _ _ ihf ihg =>
    intro s t hst
    refine (ihf s t hst).bind ?_
    rintro ⟨_, u⟩ ⟨a, v⟩ ⟨rfl, huv⟩
    exact ihg a u v huv

/-! ### Token streams -/

namespace TokenStream

/-- What a stream returns to calls that are made one after another and what its scanner then shows,
and the fault that ends it if there is one. -/
def transcript : List (Flags × Call) → TokenStream → List (Return × View) × Option Fault
  | [], _ => ([], none)
  | (flags, call) :: calls, ts =>
    match perform flags call ts with
    | .ok (result, us) =>
      ((result, us.scanner.view) :: (us.transcript calls).1, (us.transcript calls).2)
    | .error fault => ([], some fault)

/-- The streams of a lexicon show the same tokens, and their scanners are equivalent. -/
structure Matches (x : Lexicon) (ts us : TokenStream) : Prop where
  lexicon : ts.lexicon = x ∧ us.lexicon = x
  scanner : ts.scanner.Equivalent us.scanner
  current : us.current = ts.current
  following : us.following = ts.following

/-- The results are equal and the streams match. -/
def Agree (x : Lexicon) (p q : α × TokenStream) : Prop :=
  q.1 = p.1 ∧ Matches x p.2 q.2

variable {ts us : TokenStream} (hx : x.IsProcedural)

include hx

theorem isBlind_tokenAfter (flags : Flags) (token : Token) :
    IsBlind (tokenAfter x flags token) := by
  intro s t hst
  rw [tokenAfter, tokenAfter]
  split
  · exact .ok ⟨rfl, hst⟩
  · exact (IsProcedure.next hx flags).isBlind s t hst

/-- Streams over equivalent scanners match. -/
theorem matches_ofScanner (flags : Flags) (hst : s.Equivalent t) :
    Corresponds (Matches x) (ofScanner x flags s) (ofScanner x flags t) := by
  refine ((IsProcedure.next hx flags).isBlind s t hst).bind ?_
  rintro ⟨_, u⟩ ⟨current, v⟩ ⟨rfl, huv⟩
  refine (isBlind_tokenAfter hx flags current u v huv).bind ?_
  rintro ⟨_, u'⟩ ⟨following, v'⟩ ⟨rfl, h⟩
  exact .ok ⟨⟨rfl, rfl⟩, h, rfl, rfl⟩

namespace Matches

omit hx in
theorem hasMore_eq (h : Matches x ts us) : us.hasMore = ts.hasMore := by
  rw [hasMore, hasMore, h.current]

theorem advance (h : Matches x ts us) (flags : Flags) :
    Corresponds (Agree x) (ts.advance flags) (us.advance flags) := by
  rw [TokenStream.advance, TokenStream.advance, h.lexicon.1, h.lexicon.2, h.following]
  refine (isBlind_tokenAfter hx flags ts.following _ _ h.scanner).bind ?_
  rintro ⟨_, u⟩ ⟨after, v⟩ ⟨rfl, huv⟩
  exact .ok ⟨h.current, ⟨rfl, rfl⟩, huv, rfl, rfl⟩

theorem next? (h : Matches x ts us) (flags : Flags) :
    Corresponds (Agree x) (ts.next? flags) (us.next? flags) := by
  rw [TokenStream.next?, TokenStream.next?, h.hasMore_eq]
  split
  · refine (h.advance hx flags).bind ?_
    rintro ⟨_, ts'⟩ ⟨token, us'⟩ ⟨rfl, h'⟩
    exact .ok ⟨rfl, h'⟩
  · exact .ok ⟨rfl, h⟩

theorem takeOnto (h : Matches x ts us) (flags : Flags) (n : Nat) (taken : Array Token) :
    Corresponds (Agree x) (takeOnto flags n taken ts) (takeOnto flags n taken us) := by
  induction n generalizing ts us taken with
  | zero => exact .ok ⟨rfl, h⟩
  | succ n ih =>
    refine (h.next? hx flags).bind ?_
    rintro ⟨_, ts'⟩ ⟨_ | token, us'⟩ ⟨rfl, h'⟩
    · exact .ok ⟨rfl, h'⟩
    · exact ih h' (taken.push token)

theorem all (h : Matches x ts us) (flags : Flags) :
    Corresponds (Agree x) (ts.all flags) (us.all flags) := by
  rw [TokenStream.all, TokenStream.all, isCongruence_equivalent.allowance_eq h.scanner]
  refine (h.takeOnto hx flags _ #[]).bind ?_
  rintro ⟨_, ts'⟩ ⟨tokens, us'⟩ ⟨rfl, h'⟩
  dsimp only
  rw [h'.hasMore_eq, isCongruence_equivalent.position h'.scanner]
  split
  · exact .error _
  · exact .ok ⟨rfl, h'⟩

/-- Matching streams return the same to a call and match after it. -/
theorem perform (h : Matches x ts us) (flags : Flags) (call : Call) :
    Corresponds (Agree x) (perform flags call ts) (perform flags call us) := by
  cases call with
  | advance =>
    exact Corresponds.map_iff.mpr ((h.advance hx flags).mono fun _ _ h =>
      ⟨congrArg Return.token h.1, h.2⟩)
  | next? =>
    exact Corresponds.map_iff.mpr ((h.next? hx flags).mono fun _ _ h =>
      ⟨congrArg Return.token? h.1, h.2⟩)
  | current => exact .ok ⟨congrArg Return.token h.current, h⟩
  | following => exact .ok ⟨congrArg Return.token h.following, h⟩
  | hasMore => exact .ok ⟨congrArg Return.truth h.hasMore_eq, h⟩
  | all =>
    exact Corresponds.map_iff.mpr ((h.all hx flags).mono fun _ _ h =>
      ⟨congrArg Return.tokens h.1, h.2⟩)

/-- Matching streams cannot be told apart by any sequence of calls. -/
theorem transcript_eq (h : Matches x ts us) (calls : List (Flags × Call)) :
    us.transcript calls = ts.transcript calls := by
  induction calls generalizing ts us with
  | nil => rfl
  | cons c calls ih =>
    obtain ⟨flags, call⟩ := c
    have hperform := h.perform hx flags call
    rw [transcript, transcript]
    generalize TokenStream.perform flags call ts = o, TokenStream.perform flags call us = o'
      at hperform
    cases hperform with
    | error fault => rfl
    | ok h' =>
      obtain ⟨hresult, h'⟩ := h'
      dsimp only
      rw [ih h', h'.scanner.view_eq, hresult]

end Matches

end TokenStream

end Lexing
