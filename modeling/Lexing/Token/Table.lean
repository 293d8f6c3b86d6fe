import Lexing.Report.Fault
import Lexing.Text.Colour
import Lexing.Token.Basic
import Lexing.Unicode.Blank

/-!
# Tables of tokens

A table has one row per token, with its position, kind, quoted value and quoted literal in columns,
and each diagnostic on a line of its own beneath its token. A column is as wide as its widest cell,
counted in code points; the last column is not padded, and no row ends in white space. The padded
columns have a greatest width, and there is no table of tokens that exceed it.

## Main definitions

* `Table.Layout.fit` : the widths of the padded columns, or a fault if one of them is too great.
* `Table.render` : the table of a list of tokens.
-/

namespace Lexing.Table

/-- The cells of a row. -/
structure Row where
  position : String
  kind : String
  value : String
  literal : String
  deriving DecidableEq, Repr

namespace Row

/-- The titles of the columns. -/
def header : Row := ⟨"Pos", "Type", "Value", "Literal"⟩

/-- The row of a token. -/
def ofToken (t : Token) : Row :=
  ⟨t.position.text, t.kind, quote t.value, quote t.literal⟩

end Row

/-- The width of the widest cell of a column. -/
def width (cell : Row → String) (rows : List Row) : Nat :=
  (rows.map fun r => (cell r).length).foldl max 0

/-- A cell filled with spaces up to a width. -/
def pad (width : Nat) (cell : String) : String :=
  cell ++ String.ofList (List.replicate (width - cell.length) ' ')

/-- A text without the white space at its end. -/
def trimEnd (text : String) : String :=
  String.ofList (text.toList.reverse.dropWhile Unicode.isBlank).reverse

/-- The greatest width of a padded column. -/
def maxWidth : Nat := 65535

/-- The widths of the padded columns. -/
structure Layout where
  position : Nat
  kind : Nat
  value : Nat
  deriving DecidableEq, Repr

namespace Layout

/-- The least widths for a list of rows. -/
def ofRows (rows : List Row) : Layout :=
  ⟨width Row.position rows, width Row.kind rows, width Row.value rows⟩

/-- Whether no column exceeds the greatest width. -/
def isAllowed (l : Layout) : Bool :=
  l.position ≤ maxWidth && l.kind ≤ maxWidth && l.value ≤ maxWidth

/-- The least widths for a list of rows, if they are allowed. -/
def fit (rows : List Row) : Except Fault Layout :=
  if (ofRows rows).isAllowed then .ok (ofRows rows) else .error .columnTooWide

/-- The cells of a row in their columns, with two spaces between them. -/
def cells (l : Layout) (r : Row) : String :=
  pad l.position r.position ++ "  " ++ pad l.kind r.kind ++ "  " ++ pad l.value r.value ++ "  " ++
    r.literal

/-- The line of a row. -/
def line (l : Layout) (r : Row) : String :=
  trimEnd (l.cells r) ++ "\n"

end Layout

/-- The line of a diagnostic, in red if the table is coloured. -/
def report (coloured : Bool) (d : Diagnostic) : String :=
  Colour.inRed coloured d.text ++ "\n"

/-- The lines of a token: its row and its diagnostics. -/
def lines (coloured : Bool) (l : Layout) (t : Token) : String :=
  l.line (Row.ofToken t) ++ String.join (t.diagnostics.map (report coloured))

/-- The table of a list of tokens. -/
def render (coloured : Bool) (tokens : List Token) : Except Fault String := do
  let l ← Layout.fit (Row.header :: tokens.map Row.ofToken)
  return l.line Row.header ++ String.join (tokens.map (lines coloured l))

end Lexing.Table
