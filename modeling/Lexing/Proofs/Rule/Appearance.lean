import Lexing.Proofs.Scanner.Appearance
import Lexing.Rule.Basic

/-!
# Rules see only what a scanner shows

A rule asks a scanner for upcoming and consumed code points and for its draft, and it acts by the
operations of scanners. So it does the same to scanners that are related by a congruence, such as
scanners that look alike: it matches both or none and leaves them related, or it comes to the same
fault. Each kind of rule is followed step by step, and the rules that it is made of are parameters
which do the same to related scanners.

## Main definitions

* `Corresponds` : the same fault, or related results.
* `Outcome.Related` : both matches or both none, with related scanners.
* `Outcome.Alike` : outcomes that look alike.

## Main results

* `SpanRule.related_attempt`, `NameRule.related_attempt`, `LiteralRule.related_attempt`,
  `CommentRule.related_attempt` : words and comments.
* `CharEscape.related_attempt`, `HexEscape.related_attempt`, `OctalEscape.related_attempt` :
  escapes.
* `Numeral.related_scan`, `Quotation.related_scan` : numbers and quoted texts.
-/

namespace Lexing

open Scanner

/-! ### Computations that may end in a fault -/

/-- The computations end in the same fault, or in results that `R` relates. -/
inductive Corresponds {α β : Type} (R : α → β → Prop) : Except Fault α → Except Fault β → Prop
  | error (fault : Fault) : Corresponds R (.error fault) (.error fault)
  | ok {a : α} {b : β} (h : R a b) : Corresponds R (.ok a) (.ok b)

theorem Corresponds.bind {α α' β β' : Type} {R : α → β → Prop} {R' : α' → β' → Prop}
    {x : Except Fault α} {y : Except Fault β} {f : α → Except Fault α'} {g : β → Except Fault β'}
    (h : Corresponds R x y) (hfg : ∀ a b, R a b → Corresponds R' (f a) (g b)) :
    Corresponds R' (x >>= f) (y >>= g) := by
  cases h with
  | error fault => exact .error fault
  | ok h => exact hfg _ _ h

/-- The flags are equal and the scanners look alike. -/
def Scanner.PairAlike (p q : Bool × Scanner) : Prop :=
  q.1 = p.1 ∧ p.2.Alike q.2

/-- The outcomes are the same fault, or both matches or both none, with scanners that look alike. -/
def Outcome.Alike (o o' : Outcome) : Prop :=
  Corresponds PairAlike o o'

/-- The flags are equal and the scanners are related. -/
def Scanner.PairRelated (R : Scanner → Scanner → Prop) (p q : Bool × Scanner) : Prop :=
  q.1 = p.1 ∧ R p.2 q.2

/-- The outcomes are the same fault, or both matches or both none, with related scanners. -/
def Outcome.Related (R : Scanner → Scanner → Prop) (o o' : Outcome) : Prop :=
  Corresponds (PairRelated R) o o'

variable {R : Scanner → Scanner → Prop} {s t : Scanner}

/-- Related attempts are settled alike. -/
theorem Outcome.related_settle {a b : Option Scanner} (h : R s t) (hab : a.Rel R b) :
    Outcome.Related R (settle s a) (settle t b) := by
  cases hab with
  | none => exact .ok ⟨rfl, h⟩
  | some hab => exact .ok ⟨rfl, hab⟩

variable (hR : IsCongruence R)

include hR

/-! ### Words -/

theorem SpanRule.related_attempt (r : SpanRule) (h : R s t) :
    (r.attempt s).Rel R (r.attempt t) := by
  rw [attempt, attempt, hR.isIn_eq h]
  by_cases hin : (!s.isIn r.members) = true
  · rw [if_pos hin, if_pos hin]
    exact .none
  · rw [if_neg hin, if_neg hin]
    by_cases hdropped : r.dropped = true
    · rw [if_pos hdropped, if_pos hdropped]
      exact .some (hR.whileIn h (.inr rfl) r.members)
    · rw [if_neg hdropped, if_neg hdropped]
      exact .some (hR.setKind? (hR.whileIn h (.inl rfl) r.members) r.kind)

theorem NameRule.related_attempt (r : NameRule) (h : R s t) :
    (r.attempt s).Rel R (r.attempt t) := by
  have hword := hR.whileIn (hR.keep h) (.inl rfl) r.tail
  have hkeyword : r.isKeyword (t.keep.whileIn r.tail .keep) =
      r.isKeyword (s.keep.whileIn r.tail .keep) := by
    rw [isKeyword_eq, isKeyword_eq, hR.valueText_eq hword]
  rw [attempt, attempt, hR.isIn_eq h]
  by_cases hin : (!s.isIn r.head) = true
  · rw [if_pos hin, if_pos hin]
    exact .none
  · rw [if_neg hin, if_neg hin]
    dsimp only
    rw [hkeyword]
    refine .some ?_
    split
    · exact hword
    · exact hR.setKind hword r.kind

theorem LiteralRule.related_attempt (r : LiteralRule) (h : R s t) :
    (r.attempt s).Rel R (r.attempt t) := by
  rw [attempt, attempt, longest, longest, hR.upcoming h]
  split
  · exact .none
  · exact .some (hR.setKind? (hR.times h (Move.isForward_ite r.skipped) _) r.kind)

/-! ### Comments -/

namespace CommentRule

variable (r : CommentRule)

theorem related_body (kept : Bool) (bound : List Char) (h : R s t) :
    R (r.body kept bound s) (r.body kept bound t) := by
  induction bound generalizing s t with
  | nil =>
    rw [body, body]
    split
    · exact hR.reject h .unterminatedComment
    · exact h
  | cons _ bound ih =>
    rw [body, body, hR.upcoming h]
    split
    · refine ih ?_
      split
      · exact hR.keep h
      · exact hR.skip h
    · split
      · exact hR.times h (.inr rfl) _
      · exact h

theorem related_label (kept : Bool) (h : R s t) : R (r.label kept s) (r.label kept t) := by
  rw [label, label, hR.draft h]
  split
  · exact hR.setKind h r.kind
  · exact h

theorem related_attempt (flags : Flags) (h : R s t) :
    (r.attempt flags s).Rel R (r.attempt flags t) := by
  have hopening := r.opening.related_attempt hR h
  rw [attempt, attempt]
  generalize r.opening.attempt s = a at hopening ⊢
  generalize r.opening.attempt t = b at hopening ⊢
  cases hopening with
  | none => exact .none
  | @some u v huv =>
    rw [Option.map_some, Option.map_some, hR.upcoming huv]
    exact .some (r.related_label hR _ (r.related_body hR _ _ huv))

end CommentRule

/-! ### Escapes -/

theorem CharEscape.related_attempt (e : CharEscape) (h : R s t) :
    (e.attempt s).Rel R (e.attempt t) := by
  rw [attempt, attempt, hR.current?_eq h]
  cases s.current?.bind e.lookup? with
  | none => exact .none
  | some c => exact .some (hR.skip (hR.pushChar h c))

theorem Scanner.IsCongruence.upcomingDigits_eq (h : R s t) (n : Nat) (k : CharClass) :
    t.upcomingDigits n k = s.upcomingDigits n k := by
  rw [upcomingDigits, upcomingDigits, hR.upcoming h]

theorem HexEscape.related_decodeDigits (e : HexEscape) (h : R s t) :
    R (e.decodeDigits s) (e.decodeDigits t) := by
  have hdigits := hR.times h (.inr rfl) e.width
  rw [decodeDigits, decodeDigits, hR.upcomingDigits_eq h]
  split
  · exact hR.reject h _
  · split
    · exact hR.pushByte hdigits _
    · split
      · exact hR.pushChar hdigits _
      · exact hR.reject h _

theorem HexEscape.related_attempt (e : HexEscape) (h : R s t) :
    (e.attempt s).Rel R (e.attempt t) := by
  rw [attempt, attempt, hR.current?_eq h]
  split
  · exact .some (e.related_decodeDigits hR (hR.skip h))
  · exact .none

theorem OctalEscape.related_attempt (e : OctalEscape) (h : R s t) :
    (e.attempt s).Rel R (e.attempt t) := by
  have hdigits := hR.times h (.inr rfl) 3
  rw [attempt, attempt, hR.isIn_eq h, hR.upcomingDigits_eq h]
  dsimp only
  split
  · exact .none
  · split
    · exact .some (hR.reject h _)
    · split
      · exact .some (hR.pushByte hdigits _)
      · exact .some (hR.pushChar hdigits _)

/-! ### Numbers -/

namespace Numeral

variable (f : Numeral)

theorem related_takeSign (h : R s t) : R (f.takeSign s) (f.takeSign t) := by
  rw [takeSign, takeSign, hR.isIn_eq h]
  split
  · exact hR.keep h
  · exact h

theorem related_passLeadingSeparator (h : R s t) :
    R (f.passLeadingSeparator s) (f.passLeadingSeparator t) := by
  rw [passLeadingSeparator, passLeadingSeparator, hR.isIn_eq h, hR.followingIn_eq h]
  split
  · exact hR.skip h
  · exact h

theorem separates_eq (h : R s t) : f.separates t = f.separates s := by
  rw [separates, separates, hR.isIn_eq h, hR.followingIn_eq h, hR.peek?_eq h]

theorem related_digitsWithin (bound : List Char) (seen : Bool) (h : R s t) :
    PairRelated R (f.digitsWithin bound seen s) (f.digitsWithin bound seen t) := by
  induction bound generalizing seen s t with
  | nil => exact ⟨rfl, h⟩
  | cons _ bound ih =>
    rw [digitsWithin, digitsWithin, hR.isIn_eq h, f.separates_eq hR h]
    split
    · exact ih true (hR.keep h)
    · split
      · exact ih seen (hR.skip h)
      · exact ⟨rfl, h⟩

theorem related_digits (h : R s t) : PairRelated R (f.digits s) (f.digits t) := by
  rw [digits, digits, hR.upcoming h]
  exact f.related_digitsWithin hR _ false h

theorem related_fraction (seen : Bool) (h : R s t) :
    PairRelated R (f.fraction seen s) (f.fraction seen t) := by
  rw [fraction, fraction, hR.isIn_eq h, hR.followingIn_eq h]
  split
  · obtain ⟨hmore, hdigits⟩ := f.related_digits hR (hR.keep (hR.setKind h f.realKind))
    exact ⟨congrArg (seen || ·) hmore, hdigits⟩
  · exact ⟨rfl, h⟩

theorem exponentFollows_eq (h : R s t) : f.exponentFollows t = f.exponentFollows s := by
  rw [exponentFollows, exponentFollows, hR.isIn_eq h, hR.followingIn_eq h, hR.followingIn_eq h,
    hR.peek?_eq h]

theorem related_exponentPart (h : R s t) : R (f.exponentPart s) (f.exponentPart t) := by
  have hflag := hR.keep (hR.setKind h f.realKind)
  rw [exponentPart, exponentPart, f.exponentFollows_eq hR h]
  split
  · dsimp only
    rw [hR.isIn_eq hflag]
    refine (f.related_digits hR ?_).2
    split
    · exact hR.keep hflag
    · exact hflag
  · exact h

theorem isLoneZero_eq (h : R s t) : f.isLoneZero t = f.isLoneZero s := by
  rw [isLoneZero, isLoneZero, hR.current?_eq h, hR.followingIn_eq h, hR.followingIn_eq h]

theorem related_body (h : R s t) : PairRelated R (f.body s) (f.body t) := by
  rw [body, body, f.isLoneZero_eq hR h]
  split
  · exact ⟨rfl, hR.keep h⟩
  · obtain ⟨hwhole, hdigits⟩ := f.related_digits hR h
    obtain ⟨hseen, hfraction⟩ := f.related_fraction hR (f.digits s).1 hdigits
    dsimp only
    rw [hwhole, hseen]
    split
    · exact ⟨rfl, f.related_exponentPart hR hfraction⟩
    · exact ⟨rfl, hfraction⟩

/-- Numbers are matched alike if their leads and suffixes are. -/
theorem related_scan {lead suffix : Scanner → Outcome}
    (hlead : ∀ s t, R s t → Outcome.Related R (lead s) (lead t))
    (hsuffix : ∀ s t, R s t → Outcome.Related R (suffix s) (suffix t)) (h : R s t) :
    Outcome.Related R (f.scan lead suffix s) (f.scan lead suffix t) := by
  refine (hlead _ _ (f.related_takeSign hR h)).bind ?_
  rintro ⟨led, u⟩ ⟨_, v⟩ ⟨rfl, huv⟩
  have hpassed := f.related_passLeadingSeparator hR (hR.setKind huv f.integerKind)
  obtain ⟨hseen, hbody⟩ := f.related_body hR hpassed
  dsimp only
  rw [hseen]
  split
  · exact .ok ⟨rfl, hR.rewind huv⟩
  · split
    · exact .ok ⟨rfl, hR.rewind hbody⟩
    · refine (hsuffix _ _ (hR.setKind? hbody f.kind)).bind ?_
      rintro ⟨_, u'⟩ ⟨_, v'⟩ ⟨-, h'⟩
      exact .ok ⟨rfl, h'⟩

end Numeral

/-! ### Quoted texts -/

namespace Quotation

variable (q : Quotation) {m : Move}

theorem related_passEscape (hm : m.IsForward) (h : R s t) :
    R (q.passEscape m s) (q.passEscape m t) := by
  have hflag := hR.apply h hm
  rw [passEscape, passEscape, hR.current?_eq hflag]
  split
  · exact hflag
  · exact hR.apply hflag hm

theorem related_recoverWithin (hm : m.IsForward) (bound : List Char) (h : R s t) :
    R (q.recoverWithin m bound s) (q.recoverWithin m bound t) := by
  induction bound generalizing s t with
  | nil => exact hR.reject h .unterminatedString
  | cons _ bound ih =>
    rw [recoverWithin, recoverWithin, hR.current?_eq h]
    cases s.current? with
    | none => exact hR.reject h .unterminatedString
    | some c =>
      dsimp only
      split
      · exact hR.reject h .unterminatedString
      · split
        · exact hR.skip h
        · split
          · exact ih (q.related_passEscape hR hm h)
          · exact ih (hR.apply h hm)

theorem related_recover (hm : m.IsForward) (h : R s t) :
    R (q.recover m s) (q.recover m t) := by
  rw [recover, recover, hR.upcoming h]
  exact q.related_recoverWithin hR hm _ h

variable {escapes : Scanner → Outcome}
  (hescapes : ∀ s t, R s t → Outcome.Related R (escapes s) (escapes t))

include hescapes

theorem related_unescape (flag : Char) (h : R s t) :
    Corresponds R (q.unescape escapes flag s) (q.unescape escapes flag t) := by
  rw [unescape, unescape, hR.current?_eq h]
  split
  · exact .ok (hR.keep h)
  · refine (hescapes _ _ h).bind ?_
    rintro ⟨_, u⟩ ⟨decoded, v⟩ ⟨rfl, huv⟩
    cases decoded with
    | true => exact .ok huv
    | false => exact .ok (hR.reject huv _)

theorem related_body (bound depth length : Nat) (h : R s t) :
    Corresponds R (q.body escapes bound depth length s) (q.body escapes bound depth length t) := by
  induction bound generalizing depth length s t with
  | zero =>
    rw [body, body, hR.position h]
    exact .error _
  | succ bound ih =>
    rw [body, body, hR.current?_eq h]
    cases s.current? with
    | none => exact .ok (hR.reject h .unterminatedString)
    | some c =>
      dsimp only
      split
      · exact .ok (hR.skip h)
      · split
        · exact .ok (hR.reject h .unterminatedString)
        · split
          · exact .ok (q.related_recover hR (.inr rfl) (hR.reject h _))
          · split
            · refine (q.related_unescape hR hescapes c (hR.skip h)).bind fun u v huv => ?_
              rw [hR.draft h, hR.draft huv]
              split
              · exact .ok (q.related_recover hR (.inl rfl) huv)
              · exact ih depth (length + 1) huv
            · exact ih (q.depthAfter depth c) (length + 1) (hR.keep h)

/-- Quoted texts are matched alike if their escapes are. -/
theorem related_scan (h : R s t) :
    Outcome.Related R (q.scan escapes s) (q.scan escapes t) := by
  have hopening := hR.setKind (hR.skip h) q.kind
  rw [scan, scan, hR.current?_eq h]
  split
  · dsimp only
    rw [hR.allowance_eq hopening]
    refine (q.related_body hR hescapes _ 0 0 hopening).bind fun u v huv => ?_
    exact .ok ⟨rfl, huv⟩
  · exact .ok ⟨rfl, h⟩

end Quotation

end Lexing
