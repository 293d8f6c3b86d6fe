/-!
# Wire documents

Tokens leave the program as JSON. A document is a tree of texts, natural numbers, lists and records
whose fields keep their order. It is written without blanks (`compact`) or with one item per line
and two spaces per level (`pretty`).
-/

namespace Lexing

/-- A JSON document made of texts, natural numbers, lists and records. -/
inductive Wire where
  | text (s : String)
  | number (n : Nat)
  | list (items : List Wire)
  | record (fields : List (String × Wire))

namespace Wire

/-- A code point as it stands in a text: quotation mark, backslash and controls are escaped, by a
letter where there is one and by four hexadecimal digits otherwise. -/
def escape (c : Char) : List Char :=
  if c = '\x22' then ['\\', '\x22']
  else if c = '\\' then ['\\', '\\']
  else if c = '\x08' then ['\\', 'b']
  else if c = '\x0c' then ['\\', 'f']
  else if c = '\n' then ['\\', 'n']
  else if c = '\r' then ['\\', 'r']
  else if c = '\t' then ['\\', 't']
  else if c.toNat < 0x20 then
    ['\\', 'u', '0', '0', Nat.digitChar (c.toNat / 16), Nat.digitChar (c.toNat % 16)]
  else [c]

/-- A text between quotation marks. -/
def textLiteral (s : String) : String :=
  String.ofList ('\x22' :: (s.toList.flatMap escape ++ ['\x22']))

/-! ### Writing without blanks -/

mutual

/-- A document without blanks. -/
def compact : Wire → String
  | text s => textLiteral s
  | number n => n.repr
  | list items => "[" ++ String.intercalate "," (compactItems items) ++ "]"
  | record fields => "\x7b" ++ String.intercalate "," (compactFields fields) ++ "\x7d"

/-- The items of a list without blanks. -/
def compactItems : List Wire → List String
  | [] => []
  | item :: items => item.compact :: compactItems items

/-- The fields of a record without blanks. -/
def compactFields : List (String × Wire) → List String
  | [] => []
  | (key, value) :: fields => (textLiteral key ++ ":" ++ value.compact) :: compactFields fields

end

/-! ### Writing with one item per line -/

/-- A line feed and the indentation of a level. -/
def lineBreak (level : Nat) : String :=
  String.ofList ('\n' :: List.replicate (2 * level) ' ')

/-- Items between delimiters, each on a line of its own at the level within. -/
def block (level : Nat) (left right : String) (items : List String) : String :=
  if items.isEmpty then left ++ right
  else
    left ++ lineBreak (level + 1) ++ String.intercalate ("," ++ lineBreak (level + 1)) items ++
      lineBreak level ++ right

mutual

/-- A document at a level, with one item per line. -/
def prettyAt (level : Nat) : Wire → String
  | text s => textLiteral s
  | number n => n.repr
  | list items => block level "[" "]" (prettyItems (level + 1) items)
  | record fields => block level "\x7b" "\x7d" (prettyFields (level + 1) fields)

/-- The items of a list at a level. -/
def prettyItems (level : Nat) : List Wire → List String
  | [] => []
  | item :: items => item.prettyAt level :: prettyItems level items

/-- The fields of a record at a level. -/
def prettyFields (level : Nat) : List (String × Wire) → List String
  | [] => []
  | (key, value) :: fields =>
    (textLiteral key ++ ": " ++ value.prettyAt level) :: prettyFields level fields

end

/-- A document with one item per line. -/
def pretty (w : Wire) : String :=
  w.prettyAt 0

end Wire

end Lexing
