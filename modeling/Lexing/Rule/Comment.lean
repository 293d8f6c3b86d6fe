import Lexing.Rule.Outcome
import Lexing.Rule.Words

/-!
# Rule for comments

A comment begins with an opening literal and ends with the first closing literal after it, the
longest one if several stand there. It is kept or dropped as a flag says when it is scanned.

## Main definitions

* `CommentRule.block?`, `CommentRule.line?` : comments up to a literal or a line end.
* `CommentRule.attempt` : matches a comment.
-/

namespace Lexing

/-- Matches a comment. -/
structure CommentRule where
  /-- What a comment begins with; it is skipped. -/
  opening : LiteralRule
  /-- What a comment ends with. -/
  closing : WordTree
  /-- Whether the closing literal belongs to the comment; it must then not be missing. -/
  inclusive : Bool := true
  /-- The kind of a kept comment. -/
  kind : String := Kind.comment
  /-- The flag that says whether comments are kept. Without a flag they are dropped. -/
  keepFlag : Option String := none
  deriving DecidableEq, Repr

namespace CommentRule

/-- Comments between an opening and a closing literal. -/
def between (opening closing : LiteralRule) : CommentRule :=
  { opening := { opening with skipped := true }, closing := closing.words }

/-- Comments from an opening literal up to the end of the line. -/
def toLineEnd (opening : LiteralRule) : CommentRule :=
  { between opening { words := .ofWords ["\n"] } with inclusive := false }

/-- Comments between two literals, which may not be empty. -/
def block? (opening closing : String) : Except RuleError CommentRule :=
  return between (← LiteralRule.ofWords? [opening]) (← LiteralRule.ofWords? [closing])

/-- Comments from a literal, which may not be empty, up to the end of the line. -/
def line? (opening : String) : Except RuleError CommentRule :=
  return toLineEnd (← LiteralRule.ofWords? [opening])

/-- Consumes a comment after its opening literal, at most one code point per code point of `bound`.
-/
def body (r : CommentRule) (kept : Bool) : List Char → Scanner → Scanner
  | [], s => if r.inclusive then s.reject .unterminatedComment else s
  | _ :: bound, s =>
    match r.closing.longest s.upcoming.chars with
    | 0 => body r kept bound (if kept then s.keep else s.skip)
    | n => if r.inclusive then s.times n .skip else s

/-- Gives a kept comment its kind, unless it has one. -/
def label (r : CommentRule) (kept : Bool) (s : Scanner) : Scanner :=
  if kept && s.draft.kind.isEmpty then s.setKind r.kind else s

/-- Matches a comment. -/
def attempt (r : CommentRule) (flags : Flags) (s : Scanner) : Option Scanner :=
  (r.opening.attempt s).map fun t =>
    let kept := r.keepFlag.any flags
    r.label kept (r.body kept t.upcoming.chars t)

end CommentRule

end Lexing
