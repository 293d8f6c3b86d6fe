import Lexing.Text.Inspect

/-!
# Positions

A position names a text and a place in it by line and column, both counted from 1. The number 0
stands for a line or column that is not known. Both are numbers of 32 bits, and counting goes on
with 0 after the greatest of them.
-/

namespace Lexing

/-- A place in a text. -/
structure Position where
  /-- The name of the text, if it has one. -/
  name : Option String := none
  /-- The line, counted from 1, or 0 if it is not known. -/
  line : UInt32 := 0
  /-- The column, counted from 1, or 0 if it is not known. -/
  column : UInt32 := 0
  deriving DecidableEq, Repr, Inhabited

namespace Position

/-- The beginning of the text called `name`. The empty name is no name. -/
def start (name : String) : Position :=
  { name := if name.isEmpty then none else some name, line := 1, column := 1 }

/-- The name of the text, empty if it has none. -/
def nameText (p : Position) : String :=
  p.name.getD ""

/-- The position after the code point `c`. Only a line feed begins a new line. The number that is
counted up becomes 0 after the greatest one. -/
def advance (p : Position) (c : Char) : Position :=
  if c = '\n' then { p with line := p.line + 1, column := 1 }
  else { p with column := p.column + 1 }

/-- The position after a list of code points. -/
def advanceAll (p : Position) (cs : List Char) : Position :=
  cs.foldl advance p

/-- The position as it stands in messages: the name, the line and the column, as far as known. -/
def text (p : Position) : String :=
  p.name.elim "" (· ++ ":") ++ place
where
  /-- The line and the column. An unknown column is left out, and so are two unknown numbers. -/
  place : String :=
    if p.column ≠ 0 then p.line.toNat.repr ++ ":" ++ p.column.toNat.repr
    else if p.line ≠ 0 then p.line.toNat.repr
    else ""

/-- The fields of a position. -/
def inspect (p : Position) : String :=
  Inspect.record "Pos" [
    ("name", Inspect.optional (p.name.map quote)),
    ("line", p.line.toNat.repr),
    ("column", p.column.toNat.repr)]

end Position

end Lexing
