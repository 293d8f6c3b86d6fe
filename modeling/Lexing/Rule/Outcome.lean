import Lexing.Report.Fault
import Lexing.Scanner.Basic

/-!
# Flags and outcomes

The flags of a scan are truth values with names. They are not part of the rules and may change from
one token to the next.

Trying a rule has an outcome: whether the rule matched and the scanner after it, or a fault. Most
rules make an attempt, which gives the scanner after a match or nothing, and `settle` makes the
outcome of it.
-/

namespace Lexing

/-- Truth values by name. -/
abbrev Flags := String → Bool

namespace Flags

/-- Every flag is off. -/
def off : Flags := fun _ => false

/-- Sets one flag. -/
def set (flags : Flags) (name : String) (on : Bool) : Flags :=
  fun other => if other = name then on else flags other

end Flags

/-- Whether a rule matched and the scanner after it, or a fault. -/
abbrev Outcome := Except Fault (Bool × Scanner)

/-- The outcome of an attempt, which leaves the scanner as it is where it does not match. -/
def Outcome.settle (s : Scanner) : Option Scanner → Outcome
  | some t => .ok (true, t)
  | none => .ok (false, s)

end Lexing
