import Lexing.CharClass.Catalog
import Lexing.Report.Fault
import Lexing.Scanner.Move
import Lexing.WordTree

/-!
# Rules for words

Three rules match words: runs of code points of one class, names with reserved words among them, and
fixed literals. An attempt of such a rule gives the scanner after the match, or nothing if the rule
does not match; the scanner is then as it was.

## Main definitions

* `SpanRule`, `NameRule`, `LiteralRule` : the rules.
* `SpanRule.space` : the rule that drops a run.
* `LiteralRule.ofWords?` : the literals must not be empty.
-/

namespace Lexing

/-! ### Runs -/

/-- Matches a run of code points of a class. -/
structure SpanRule where
  /-- The class of the code points. -/
  members : CharClass
  /-- The kind of the token, if the rule gives one. -/
  kind : Option String := none
  /-- Whether the run is skipped, so that the token is blank and gets dropped. -/
  dropped : Bool := false

/-- The rule that drops a run of code points of a class, such as blanks. -/
def SpanRule.space (members : CharClass) : SpanRule := { members, dropped := true }

/-- Matches at least one code point of the class. -/
def SpanRule.attempt (r : SpanRule) (s : Scanner) : Option Scanner :=
  if !s.isIn r.members then none
  else if r.dropped then some (s.whileIn r.members .skip)
  else some ((s.whileIn r.members .keep).setKind? r.kind)

/-! ### Names -/

/-- Matches a name: a code point of the class `head` and any number of code points of the class
`tail`. A keyword is given no kind, so that it is a kind of its own. -/
structure NameRule where
  /-- What a name begins with. -/
  head : CharClass := .nameHead
  /-- What a name goes on with. -/
  tail : CharClass := .nameTail
  /-- Names that are kinds of their own. -/
  keywords : List String := []
  /-- The kind of other names. -/
  kind : String := Kind.identifier

namespace NameRule

/-- Whether the value of the draft is a keyword. The value is read only if there are keywords. -/
def isKeyword (r : NameRule) (s : Scanner) : Bool :=
  !r.keywords.isEmpty && r.keywords.contains s.valueText

/-- Being a keyword is being one of the list. -/
theorem isKeyword_eq (r : NameRule) (s : Scanner) :
    r.isKeyword s = r.keywords.contains s.valueText := by
  unfold isKeyword
  cases r.keywords <;> simp

/-- Matches a name. -/
def attempt (r : NameRule) (s : Scanner) : Option Scanner :=
  if !s.isIn r.head then none
  else
    let t := s.keep.whileIn r.tail .keep
    some (if r.isKeyword t then t else t.setKind r.kind)

end NameRule

/-! ### Literals -/

/-- Matches the longest of a set of literals. -/
structure LiteralRule where
  /-- The literals. -/
  words : WordTree
  /-- Whether the literal is left out of the value. -/
  skipped : Bool := false
  /-- The kind of the token, if the rule gives one. -/
  kind : Option String := none
  deriving DecidableEq, Repr

namespace LiteralRule

/-- The rule for a list of literals, none of which may be empty. -/
def ofWords? (words : List String) : Except RuleError LiteralRule :=
  if words.any String.isEmpty then .error .emptyLiteral
  else .ok { words := .ofWords words }

/-- The length of the longest literal that is upcoming, or 0 if there is none. -/
def longest (r : LiteralRule) (s : Scanner) : Nat :=
  r.words.longest s.upcoming.chars

/-- Matches the longest literal that is upcoming. -/
def attempt (r : LiteralRule) (s : Scanner) : Option Scanner :=
  match r.longest s with
  | 0 => none
  | n => some ((s.times n (if r.skipped then .skip else .keep)).setKind? r.kind)

end LiteralRule

end Lexing
