import Lexing.Rule.Comment
import Lexing.Rule.Escape
import Lexing.Rule.Numeral
import Lexing.Rule.Quotation
import Lexing.Rule.Words

/-!
# Rules

A rule tries to match at the current position of a scanner. If it matches, what it consumed is in
the draft of the scanner. Rules may be made of other rules: the lead and the suffixes of numbers,
the escapes of quoted texts, and groups, of which the first rule that matches counts.

## Main definitions

* `Rule` : the kinds of rules.
* `Rule.eval` : tries a rule.
* `Rule.evalFirst` : tries rules in order until one matches.
* `NumberRule` : numbers with a lead.
-/

namespace Lexing

/-- A rule. -/
inductive Rule where
  /-- A run of code points of a class. -/
  | span (r : SpanRule)
  /-- A name. -/
  | name (r : NameRule)
  /-- The longest of a set of literals. -/
  | literal (r : LiteralRule)
  /-- A number with a lead, if there is one, and with the first suffix that matches. -/
  | number (f : Numeral) (lead : Option Rule) (suffixes : List Rule)
  /-- A quoted text with the rules that decode its escapes. -/
  | quotation (q : Quotation) (escapes : List Rule)
  /-- A comment. -/
  | comment (r : CommentRule)
  /-- An escape by a single code point. -/
  | charEscape (e : CharEscape)
  /-- An escape by hexadecimal digits. -/
  | hexEscape (e : HexEscape)
  /-- An escape by octal digits. -/
  | octalEscape (e : OctalEscape)
  /-- The first of several rules that matches. -/
  | group (rules : List Rule)
  /-- A rule given by a function. -/
  | custom (run : Flags → Scanner → Outcome)

namespace Rule

instance : Inhabited Rule := ⟨.group []⟩

mutual

/-- Tries a rule. -/
def eval (flags : Flags) : Rule → Scanner → Outcome
  | .span r, s => Outcome.settle s (r.attempt s)
  | .name r, s => Outcome.settle s (r.attempt s)
  | .literal r, s => Outcome.settle s (r.attempt s)
  | .number f lead suffixes, s => f.scan (evalLead flags lead) (evalFirst flags suffixes) s
  | .quotation q escapes, s => q.scan (evalFirst flags escapes) s
  | .comment r, s => Outcome.settle s (r.attempt flags s)
  | .charEscape e, s => Outcome.settle s (e.attempt s)
  | .hexEscape e, s => Outcome.settle s (e.attempt s)
  | .octalEscape e, s => Outcome.settle s (e.attempt s)
  | .group rules, s => evalFirst flags rules s
  | .custom run, s => run flags s

/-- Tries rules in order until one matches. -/
def evalFirst (flags : Flags) : List Rule → Scanner → Outcome
  | [], s => .ok (false, s)
  | r :: rs, s => do
    let (matched, t) ← eval flags r s
    if matched then return (true, t)
    evalFirst flags rs t

/-- Tries the lead of a number. A number without lead needs none. -/
def evalLead (flags : Flags) : Option Rule → Scanner → Outcome
  | none, s => .ok (true, s)
  | some r, s => eval flags r s

end

end Rule

/-! ### Numbers with a lead -/

/-- A number with the rules for its lead and its suffixes. -/
structure NumberRule where
  /-- Which parts the number may have. -/
  format : Numeral
  /-- The rule for the lead, if there is one. -/
  lead : Option Rule := none
  /-- The rules for suffixes, in the order in which they are tried. -/
  suffixes : List Rule := []

namespace NumberRule

/-- The number as a rule. -/
def rule (r : NumberRule) : Rule := .number r.format r.lead r.suffixes

/-- A number after one of the given leads. -/
def led (format : Numeral) (leads : List String) : NumberRule :=
  { format, lead := some (.literal { words := .ofWords leads }) }

/-- Binary digits after `0b` or `0B`. -/
def binary : NumberRule := led .binary ["0b", "0B"]

/-- Octal digits after `0o` or `0O`. -/
def octal : NumberRule := led .octal ["0o", "0O"]

/-- Hexadecimal digits after `0x` or `0X`. -/
def hexadecimal : NumberRule := led .hexadecimal ["0x", "0X"]

end NumberRule

end Lexing
