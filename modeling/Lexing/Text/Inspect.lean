import Lexing.Text.Quoted

/-!
# Inspection texts

An inspection shows a value part by part: a record with its field names, a tuple or a list with
its items, an optional part as present or absent.
-/

namespace Lexing.Inspect

/-- Items of a list between brackets. -/
def list (items : List String) : String :=
  "[" ++ String.intercalate ", " items ++ "]"

/-- A name with parts in parentheses. -/
def tuple (name : String) (items : List String) : String :=
  name ++ "(" ++ String.intercalate ", " items ++ ")"

/-- A name with named parts in braces. -/
def record (name : String) (fields : List (String × String)) : String :=
  name ++ " \x7b " ++ String.intercalate ", " (fields.map fun f => f.1 ++ ": " ++ f.2) ++ " \x7d"

/-- A part that may be absent. -/
def optional : Option String → String
  | none => "None"
  | some text => tuple "Some" [text]

end Lexing.Inspect
