import Lexing.Token.Document
import Mathlib.Data.List.Forall2

/-!
# Layouts of wire documents

A wire document is a sequence of lexemes: texts, numbers and marks. Its written forms are layouts of
the same lexemes, which differ only in the blanks between them. A number must not be followed by
something that it could go on with; in a document a mark or a line break follows.

The written form of a part of a document is laid out whatever comes after it, so that the forms of
the parts are put together without looking into them.

## Main definitions

* `Lexeme` : a kind and a value.
* `Wire.lexemes`, `Token.lexemes` : the lexemes of a document, and those of a token.
* `Layout` : a text that consists of lexemes and blanks.
* `LaysOut` : a text that can be put before any layout.

## Main results

* `Wire.layout_compact`, `Wire.layout_pretty` : both written forms are layouts of the lexemes.
* `Token.lexemes_wireAll` : the lexemes of the document of a list of tokens.
-/

namespace Lexing

/-! ### Lexemes -/

/-- A kind and a value. -/
structure Lexeme where
  kind : String
  value : String
  deriving DecidableEq, Repr

namespace Lexeme

/-- A mark, which is a kind of its own. -/
def mark (c : Char) : Lexeme := ⟨String.singleton c, String.singleton c⟩

/-- A quoted text. -/
def text (s : String) : Lexeme := ⟨Kind.string, s⟩

/-- A number in decimal digits. -/
def number (n : Nat) : Lexeme := ⟨Kind.integer, n.repr⟩

/-- Items between two marks, with commas between them. -/
def enclosed (left right : Char) (items : List (List Lexeme)) : List Lexeme :=
  mark left :: ([mark ','].intercalate items ++ [mark right])

end Lexeme

/-- The kind and the value of a token. -/
def Token.lexeme (t : Token) : Lexeme := ⟨t.kind, t.value⟩

namespace Wire

mutual

/-- The lexemes of a document. -/
def lexemes : Wire → List Lexeme
  | text s => [.text s]
  | number n => [.number n]
  | list items => Lexeme.enclosed '[' ']' (itemLexemes items)
  | record fields => Lexeme.enclosed '\x7b' '\x7d' (fieldLexemes fields)

/-- The lexemes of each item of a list. -/
def itemLexemes : List Wire → List (List Lexeme)
  | [] => []
  | item :: items => item.lexemes :: itemLexemes items

/-- The lexemes of each field of a record. -/
def fieldLexemes : List (String × Wire) → List (List Lexeme)
  | [] => []
  | (key, value) :: fields => (.text key :: .mark ':' :: value.lexemes) :: fieldLexemes fields

end

end Wire

/-! ### Layouts -/

/-- A code point that may stand between lexemes. -/
def IsBlank (c : Char) : Prop :=
  c ∈ [' ', '\n', '\r', '\t']

instance (c : Char) : Decidable (IsBlank c) := inferInstanceAs (Decidable (c ∈ _))

/-- A code point that is a lexeme of its own. -/
def IsMark (c : Char) : Prop :=
  c ∈ ['[', ']', '\x7b', '\x7d', ':', ',']

instance (c : Char) : Decidable (IsMark c) := inferInstanceAs (Decidable (c ∈ _))

/-- The text does not begin with something that a number could go on with. -/
def EndsNumber (text : List Char) : Prop :=
  ∀ c, text.head? = some c → c.isDigit = false ∧ c ∉ ['.', 'e', 'E']

/-- The text consists of the lexemes, with blanks before, between and after them. -/
inductive Layout : List Lexeme → List Char → Prop
  | nil : Layout [] []
  | blank {c : Char} {ls : List Lexeme} {rest : List Char} (hc : IsBlank c) (h : Layout ls rest) :
      Layout ls (c :: rest)
  | mark {c : Char} {ls : List Lexeme} {rest : List Char} (hc : IsMark c) (h : Layout ls rest) :
      Layout (.mark c :: ls) (c :: rest)
  | text (s : String) {ls : List Lexeme} {rest : List Char} (h : Layout ls rest) :
      Layout (.text s :: ls) ((Wire.textLiteral s).toList ++ rest)
  | number (n : Nat) {ls : List Lexeme} {rest : List Char} (hrest : EndsNumber rest)
      (h : Layout ls rest) : Layout (.number n :: ls) (n.repr.toList ++ rest)

/-- The text can be put before any layout that does not begin with something that a number could go
on with, and adds the lexemes to it. -/
def LaysOut (ls : List Lexeme) (w : List Char) : Prop :=
  ∀ ms rest, EndsNumber rest → Layout ms rest → Layout (ls ++ ms) (w ++ rest)

theorem EndsNumber.nil : EndsNumber [] :=
  fun _ h => absurd h.symm (Option.some_ne_none _)

theorem isBlank_iff {c : Char} : IsBlank c ↔ c = ' ' ∨ c = '\n' ∨ c = '\r' ∨ c = '\t' := by
  simp [IsBlank]

theorem isMark_iff {c : Char} :
    IsMark c ↔ c = '[' ∨ c = ']' ∨ c = '\x7b' ∨ c = '\x7d' ∨ c = ':' ∨ c = ',' := by
  simp [IsMark]

theorem EndsNumber.of_isBlank {c : Char} (hc : IsBlank c) (rest : List Char) :
    EndsNumber (c :: rest) := by
  rintro d hd
  obtain rfl := Option.some.inj hd
  rcases isBlank_iff.mp hc with rfl | rfl | rfl | rfl <;> decide

theorem EndsNumber.of_isMark {c : Char} (hc : IsMark c) (rest : List Char) :
    EndsNumber (c :: rest) := by
  rintro d hd
  obtain rfl := Option.some.inj hd
  rcases isMark_iff.mp hc with rfl | rfl | rfl | rfl | rfl | rfl <;> decide

/-- Blanks before a layout. -/
theorem Layout.blanks {gap : List Char} (hgap : ∀ c ∈ gap, IsBlank c) {ls : List Lexeme}
    {rest : List Char} (h : Layout ls rest) : Layout ls (gap ++ rest) := by
  induction gap with
  | nil => exact h
  | cons c gap ih =>
    obtain ⟨hc, hgap⟩ := List.forall_mem_cons.mp hgap
    exact .blank hc (ih hgap)

theorem EndsNumber.blanks {gap : List Char} (hgap : ∀ c ∈ gap, IsBlank c) {rest : List Char}
    (h : EndsNumber rest) : EndsNumber (gap ++ rest) := by
  rcases gap with _ | ⟨c, gap⟩
  · exact h
  · exact .of_isBlank (hgap c List.mem_cons_self) _

namespace LaysOut

variable {ls : List Lexeme} {w gap gap' : List Char}

theorem text (s : String) : LaysOut [.text s] (Wire.textLiteral s).toList :=
  fun _ _ _ h => .text s h

theorem number (n : Nat) : LaysOut [.number n] n.repr.toList :=
  fun _ _ hrest h => .number n hrest h

/-- A key and a value. -/
theorem field (key : String) (hgap : ∀ c ∈ gap, IsBlank c) (h : LaysOut ls w) :
    LaysOut (.text key :: .mark ':' :: ls)
      ((Wire.textLiteral key).toList ++ ':' :: (gap ++ w)) := by
  intro ms rest hrest hlayout
  have hvalue : Layout (ls ++ ms) (gap ++ (w ++ rest)) := (h ms rest hrest hlayout).blanks hgap
  simpa using Layout.text key (.mark (c := ':') (by decide) hvalue)

/-- Items with commas between them. -/
theorem intercalate {items : List (List Lexeme)} {texts : List (List Char)}
    (hgap : ∀ c ∈ gap, IsBlank c) (h : List.Forall₂ LaysOut items texts) :
    LaysOut ([.mark ','].intercalate items) ((',' :: gap).intercalate texts) := by
  induction h with
  | nil => exact fun _ _ _ hlayout => hlayout
  | @cons first w items texts hfirst hitems ih =>
    intro ms rest hrest hlayout
    cases hitems with
    | nil => simpa using hfirst ms rest hrest hlayout
    | @cons second w' items texts hsecond hitems =>
      have hcomma : IsMark ',' := by decide
      have hmore := (ih ms rest hrest hlayout).blanks hgap
      have hall := hfirst _ _ (.of_isMark hcomma _) (.mark hcomma hmore)
      simpa [List.intercalate_cons_cons] using hall

/-- Items between two marks, with blanks after the first mark and after each comma, and before the
second mark. -/
theorem enclosed {left right : Char} (hleft : IsMark left) (hright : IsMark right)
    {items : List (List Lexeme)} {texts : List (List Char)} (hgap : ∀ c ∈ gap, IsBlank c)
    (hgap' : ∀ c ∈ gap', IsBlank c) (h : List.Forall₂ LaysOut items texts) :
    LaysOut (Lexeme.enclosed left right items)
      (left :: (gap ++ ((',' :: gap).intercalate texts ++ (gap' ++ [right])))) := by
  intro ms rest _ hlayout
  have hend : Layout (.mark right :: ms) (gap' ++ right :: rest) :=
    (Layout.mark hright hlayout).blanks hgap'
  have hnumber : EndsNumber (gap' ++ right :: rest) :=
    (EndsNumber.of_isMark hright rest).blanks hgap'
  have hitems := (intercalate hgap h _ _ hnumber hend).blanks hgap
  simpa [Lexeme.enclosed] using Layout.mark hleft hitems

end LaysOut

/-! ### Written documents -/

namespace Wire

/-- Items between two marks without blanks. -/
theorem laysOut_joined {left right : Char} (hleft : IsMark left) (hright : IsMark right)
    {items : List (List Lexeme)} {texts : List String}
    (h : List.Forall₂ LaysOut items (texts.map String.toList)) :
    LaysOut (Lexeme.enclosed left right items)
      (String.singleton left ++ String.intercalate "," texts ++ String.singleton right).toList := by
  simpa using LaysOut.enclosed hleft hright (List.forall_mem_nil _) (List.forall_mem_nil _) h

mutual

/-- A document without blanks is a layout of its lexemes. -/
theorem laysOut_compact : ∀ w : Wire, LaysOut w.lexemes w.compact.toList
  | .text s => .text s
  | .number n => .number n
  | .list items => laysOut_joined (by decide) (by decide) (laysOut_compactItems items)
  | .record fields => laysOut_joined (by decide) (by decide) (laysOut_compactFields fields)

theorem laysOut_compactItems : ∀ items : List Wire,
    List.Forall₂ LaysOut (itemLexemes items) ((compactItems items).map String.toList)
  | [] => .nil
  | item :: items => .cons (laysOut_compact item) (laysOut_compactItems items)

theorem laysOut_compactFields : ∀ fields : List (String × Wire),
    List.Forall₂ LaysOut (fieldLexemes fields) ((compactFields fields).map String.toList)
  | [] => .nil
  | (key, value) :: fields => by
    have h := LaysOut.field key (List.forall_mem_nil _) (laysOut_compact value)
    exact .cons (by simpa using h) (laysOut_compactFields fields)

end

theorem isBlank_lineBreak (level : Nat) : ∀ c ∈ (lineBreak level).toList, IsBlank c := by
  intro c hc
  rw [lineBreak, String.toList_ofList, List.mem_cons, List.mem_replicate] at hc
  rcases hc with rfl | ⟨-, rfl⟩
  · decide
  · decide

/-- Items between two marks, each on a line of its own. -/
theorem laysOut_block {left right : Char} (hleft : IsMark left) (hright : IsMark right)
    {items : List (List Lexeme)} {texts : List String} (level : Nat)
    (h : List.Forall₂ LaysOut items (texts.map String.toList)) :
    LaysOut (Lexeme.enclosed left right items)
      (block level (String.singleton left) (String.singleton right) texts).toList := by
  unfold block
  by_cases hempty : texts.isEmpty = true
  · rw [if_pos hempty]
    obtain rfl := List.isEmpty_iff.mp hempty
    simpa using laysOut_joined hleft hright h
  · rw [if_neg hempty]
    simpa using LaysOut.enclosed hleft hright (isBlank_lineBreak (level + 1))
      (isBlank_lineBreak level) h

mutual

/-- A document with one item per line is a layout of its lexemes. -/
theorem laysOut_prettyAt (level : Nat) : ∀ w : Wire, LaysOut w.lexemes (w.prettyAt level).toList
  | .text s => .text s
  | .number n => .number n
  | .list items =>
    laysOut_block (by decide) (by decide) level (laysOut_prettyItems (level + 1) items)
  | .record fields =>
    laysOut_block (by decide) (by decide) level (laysOut_prettyFields (level + 1) fields)

theorem laysOut_prettyItems (level : Nat) : ∀ items : List Wire,
    List.Forall₂ LaysOut (itemLexemes items) ((prettyItems level items).map String.toList)
  | [] => .nil
  | item :: items => .cons (laysOut_prettyAt level item) (laysOut_prettyItems level items)

theorem laysOut_prettyFields (level : Nat) : ∀ fields : List (String × Wire),
    List.Forall₂ LaysOut (fieldLexemes fields) ((prettyFields level fields).map String.toList)
  | [] => .nil
  | (key, value) :: fields => by
    have hspace : ∀ c ∈ [' '], IsBlank c := List.forall_mem_singleton.mpr (by decide)
    have h := LaysOut.field key hspace (laysOut_prettyAt level value)
    exact .cons (by simpa using h) (laysOut_prettyFields level fields)

end

theorem layout_compact (w : Wire) : Layout w.lexemes w.compact.toList := by
  simpa using w.laysOut_compact [] [] EndsNumber.nil .nil

theorem layout_pretty (w : Wire) : Layout w.lexemes w.pretty.toList := by
  rw [pretty]
  simpa using w.laysOut_prettyAt 0 [] [] EndsNumber.nil .nil

end Wire

/-! ### Documents of tokens -/

/-- The lexemes of a position: its name if it has one, its line and its column. -/
def Position.lexemes (p : Position) : List Lexeme :=
  [Lexeme.mark '\x7b'] ++
  p.name.elim [] (fun name => [Lexeme.text "name", .mark ':', .text name, .mark ',']) ++
  [Lexeme.text "line", .mark ':', .number p.line.toNat, .mark ',',
    .text "column", .mark ':', .number p.column.toNat, .mark '\x7d']

/-- The lexemes of a diagnostic: its position and its message. -/
def Diagnostic.lexemes (d : Diagnostic) : List Lexeme :=
  [Lexeme.mark '\x7b', .text "position", .mark ':'] ++ d.position.lexemes ++
  [Lexeme.mark ',', .text "message", .mark ':', .text d.message, .mark '\x7d']

namespace Token

/-- The lexemes of a token: its value, its literal if that differs from the value, its kind, its
position, and its diagnostics if there are any. -/
def lexemes (t : Token) : List Lexeme :=
  [Lexeme.mark '\x7b', .text "value", .mark ':', .text t.value] ++
  (if t.literal = t.value then []
    else [Lexeme.mark ',', .text "literal", .mark ':', .text t.literal]) ++
  [Lexeme.mark ',', .text "type", .mark ':', .text t.kind,
    .mark ',', .text "position", .mark ':'] ++ t.position.lexemes ++
  (if t.diagnostics.isEmpty then []
    else [Lexeme.mark ',', .text "diagnostics", .mark ':'] ++
      Lexeme.enclosed '[' ']' (t.diagnostics.map Diagnostic.lexemes)) ++
  [Lexeme.mark '\x7d']

/-- The lexemes of a list of tokens. -/
def allLexemes (tokens : List Token) : List Lexeme :=
  Lexeme.enclosed '[' ']' (tokens.map lexemes)

end Token

theorem Wire.itemLexemes_map {α : Type} (f : α → Wire) (xs : List α) :
    itemLexemes (xs.map f) = xs.map fun x => (f x).lexemes := by
  induction xs with
  | nil => rfl
  | cons x xs ih => rw [List.map_cons, itemLexemes, ih, List.map_cons]

theorem Position.lexemes_wire (p : Position) : p.wire.lexemes = p.lexemes := by
  rcases p with ⟨_ | name, line, column⟩ <;> rfl

theorem Diagnostic.lexemes_wire (d : Diagnostic) : d.wire.lexemes = d.lexemes := by
  simp [wire, Wire.lexemes, Wire.fieldLexemes, Position.lexemes_wire, lexemes, Lexeme.enclosed]

theorem Token.lexemes_wire (t : Token) : t.wire.lexemes = t.lexemes := by
  have hreports : Wire.itemLexemes (t.diagnostics.map Diagnostic.wire) =
      t.diagnostics.map Diagnostic.lexemes := by
    simp only [Wire.itemLexemes_map, Diagnostic.lexemes_wire]
  by_cases hliteral : t.literal = t.value <;> by_cases hempty : t.diagnostics.isEmpty = true <;>
    simp [wire, lexemes, hliteral, hempty, Wire.lexemes, Wire.fieldLexemes, Lexeme.enclosed,
      Position.lexemes_wire, hreports]

theorem Token.lexemes_wireAll (tokens : List Token) :
    (wireAll tokens).lexemes = allLexemes tokens := by
  rw [wireAll, Wire.lexemes, Wire.itemLexemes_map, allLexemes]
  simp only [lexemes_wire]

end Lexing
