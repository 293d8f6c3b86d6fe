import Lexing.Token.Table
import Mathlib.Data.List.DropRight

/-!
# Alignment of tables

The lines of a table are its header, and for each token its row with the diagnostics of the token
right behind it. The cells of the header and of every row begin at the same offsets, so that a line
falls into its cells again where it is cut there.

Values and literals are quoted, and a quoted text has no line feed; the other texts of a token must
have none for its row and its diagnostics to be single lines. A quoted literal ends in a quotation
mark, so that nothing is lost where white space is removed from the end of a row.

There is a table if, and only if, no padded cell exceeds the greatest width of a column.

## Main definitions

* `Token.Unbroken` : the texts of a token that are not quoted have no line feed.
* `Table.Offsets.Cuts` : a line that falls into the cells of a row.
* `Table.Aligned` : a text that is an aligned table of tokens.
* `Table.Row.FitsIn` : a row that is not wider than the columns.

## Main results

* `Table.width_le_iff` : a column is as wide as its widest cell.
* `Table.Layout.cuts_cells` : the line of a row that fits falls into its cells.
* `Table.Layout.line_eq` : no row is trimmed.
* `Table.aligned_iff_fits` : there is an aligned table exactly if no row is too wide.
* `Table.render_eq_error_of_length` : there is no table of a token with a value that is too long.
-/

namespace Lexing

/-! ### Texts without line feeds -/

/-- The name of the text, if it has one, has no line feed. -/
def Position.Unbroken (p : Position) : Prop :=
  ∀ name ∈ p.name, '\n' ∉ name.toList

/-- Neither the name of the text nor the message nor the cause has a line feed. -/
structure Diagnostic.Unbroken (d : Diagnostic) : Prop where
  position : d.position.Unbroken
  message : '\n' ∉ d.message.toList
  cause : ∀ cause ∈ d.cause, '\n' ∉ cause.toList

/-- No text of the token other than its value and its literal has a line feed. -/
structure Token.Unbroken (t : Token) : Prop where
  kind : '\n' ∉ t.kind.toList
  position : t.position.Unbroken
  diagnostics : ∀ d ∈ t.diagnostics, d.Unbroken

theorem lineFeed_not_mem_toDigits {b : Nat} (hb : 1 < b) (hb' : b ≤ 16) (n : Nat) :
    '\n' ∉ Nat.toDigits b n := by
  have hdigit : ∀ d < 16, '\n' ≠ Nat.digitChar d := by decide
  induction n using Nat.strong_induction_on with
  | _ n ih =>
    by_cases hn : n < b
    · rw [Nat.toDigits_of_lt_base hn, List.mem_singleton]
      exact hdigit n (hn.trans_le hb')
    · have hle : b ≤ n := Nat.le_of_not_lt hn
      rw [Nat.toDigits_of_base_le hb hle, List.mem_append, List.mem_singleton]
      rintro (hmem | heq)
      · exact ih (n / b) (Nat.div_lt_self (by omega) hb) hmem
      · exact hdigit (n % b) ((Nat.mod_lt n (by omega)).trans_le hb') heq

theorem lineFeed_not_mem_escape (mark c : Char) : '\n' ∉ Quoted.escape mark c := by
  unfold Quoted.escape
  -- A code point that is shown as it stands is no line feed, since that has a letter of its own.
  split_ifs with hnul htab hfeed hreturn hsign hconcealed
  · decide
  · decide
  · decide
  · decide
  · simp [Ne.symm hfeed]
  · simp [lineFeed_not_mem_toDigits]
  · simp [Ne.symm hfeed]

/-- A quoted text has no line feed. -/
theorem lineFeed_not_mem_quote (text : String) : '\n' ∉ (quote text).toList := by
  simp [quote, Quoted.between, lineFeed_not_mem_escape]

theorem Position.Unbroken.text {p : Position} (h : p.Unbroken) : '\n' ∉ p.text.toList := by
  have hplace : '\n' ∉ (Position.text.place p).toList := by
    unfold Position.text.place
    split_ifs <;> simp [lineFeed_not_mem_toDigits]
  unfold Position.text
  cases hname : p.name with
  | none => simpa using hplace
  | some name => simpa using ⟨h name hname, hplace⟩

/-- The text of a diagnostic has no line feed. -/
theorem Diagnostic.Unbroken.text {d : Diagnostic} (h : d.Unbroken) : '\n' ∉ d.text.toList := by
  unfold Diagnostic.text
  cases hcause : d.cause with
  | none => simpa using ⟨h.position.text, h.message⟩
  | some cause => simpa using ⟨h.position.text, h.message, h.cause cause hcause⟩

namespace Table

/-! ### Lines that fall into cells -/

/-- Where the cells of a line other than the first begin. -/
structure Offsets where
  kind : Nat
  value : Nat
  literal : Nat
  deriving DecidableEq, Repr

/-- The text is a cell followed by two or more spaces. -/
def Padded (cell : String) (text : List Char) : Prop :=
  ∃ n, 2 ≤ n ∧ text = cell.toList ++ List.replicate n ' '

/-- Cut at the offsets, the line falls into the cells of the row. All but the last are padded. -/
structure Offsets.Cuts (o : Offsets) (line : List Char) (r : Row) : Prop where
  position : Padded r.position (line.take o.kind)
  kind : Padded r.kind ((line.take o.value).drop o.kind)
  value : Padded r.value ((line.take o.literal).drop o.value)
  literal : line.drop o.literal = r.literal.toList

/-- The lines are for each token one that falls into the cells of its row, and then the texts of its
diagnostics. -/
inductive Offsets.Lists (o : Offsets) : List Token → List (List Char) → Prop
  | nil : Offsets.Lists o [] []
  | cons {t : Token} {tokens : List Token} {line : List Char} {lines : List (List Char)}
      (hrow : o.Cuts line (Row.ofToken t)) (h : Offsets.Lists o tokens lines) :
      Offsets.Lists o (t :: tokens)
        (line :: (t.diagnostics.map fun d => d.text.toList) ++ lines)

/-- The text consists of lines that end with a line feed: the header, and the rows of the tokens
with their diagnostics. The header and all rows fall into their cells at the same offsets. -/
def Aligned (tokens : List Token) (text : String) : Prop :=
  ∃ (o : Offsets) (header : List Char) (body : List (List Char)),
    text.toList.splitOn '\n' = header :: body ++ [[]] ∧
    (header :: body).length = 1 + tokens.length + (tokens.flatMap Token.diagnostics).length ∧
    o.Cuts header Row.header ∧ o.Lists tokens body

theorem Offsets.Lists.length {o : Offsets} {tokens : List Token} {lines : List (List Char)}
    (h : o.Lists tokens lines) :
    lines.length = tokens.length + (tokens.flatMap Token.diagnostics).length := by
  induction h with
  | nil => rfl
  | cons hrow h ih =>
    simp only [List.flatMap_cons, List.length_append, List.length_cons, List.length_map, ih]
    omega

/-! ### Widths -/

/-- No padded cell of the row is wider than its column. -/
structure Row.FitsIn (r : Row) (l : Layout) : Prop where
  position : r.position.length ≤ l.position
  kind : r.kind.length ≤ l.kind
  value : r.value.length ≤ l.value

/-- The layout whose padded columns have the greatest width. -/
def Layout.widest : Layout := ⟨maxWidth, maxWidth, maxWidth⟩

/-- A column is as wide as its widest cell. -/
theorem width_le_iff {cell : Row → String} {rows : List Row} {n : Nat} :
    width cell rows ≤ n ↔ ∀ r ∈ rows, (cell r).length ≤ n := by
  -- The induction runs over every number that the maximum may begin with.
  have hfold (least : Nat) : (rows.map fun r => (cell r).length).foldl max least ≤ n ↔
      least ≤ n ∧ ∀ r ∈ rows, (cell r).length ≤ n := by
    induction rows generalizing least with
    | nil => simp
    | cons r rows ih =>
      rw [List.map_cons, List.foldl_cons, ih, Nat.max_le, List.forall_mem_cons, and_assoc]
  simpa [width] using hfold 0

/-- Every row fits in the columns that are made for the rows. -/
theorem Layout.fitsIn_ofRows {rows : List Row} {r : Row} (h : r ∈ rows) :
    r.FitsIn (ofRows rows) :=
  ⟨width_le_iff.mp le_rfl r h, width_le_iff.mp le_rfl r h, width_le_iff.mp le_rfl r h⟩

/-- The columns that are made for rows are allowed if every row fits in the widest ones. -/
theorem Layout.isAllowed_ofRows_iff {rows : List Row} :
    (ofRows rows).isAllowed = true ↔ ∀ r ∈ rows, r.FitsIn widest := by
  simp only [isAllowed, ofRows, Bool.and_eq_true, decide_eq_true_eq, width_le_iff]
  constructor
  · rintro ⟨⟨hposition, hkind⟩, hvalue⟩ r hr
    exact ⟨hposition r hr, hkind r hr, hvalue r hr⟩
  · exact fun h => ⟨⟨fun r hr => (h r hr).position, fun r hr => (h r hr).kind⟩,
      fun r hr => (h r hr).value⟩

theorem fitsIn_header : Row.header.FitsIn .widest :=
  ⟨by decide, by decide, by decide⟩

/-! ### Rows -/

/-- The row does not end in white space. -/
def Row.EndsVisibly (r : Row) : Prop :=
  ∃ text c, r.literal.toList = text ++ [c] ∧ Unicode.isBlank c = false

theorem endsVisibly_header : Row.header.EndsVisibly :=
  ⟨"Litera".toList, 'l', by decide, by decide⟩

theorem endsVisibly_ofToken (t : Token) : (Row.ofToken t).EndsVisibly :=
  ⟨'\x22' :: t.literal.toList.flatMap (Quoted.escape '\x22'), '\x22',
    by simp [Row.ofToken, quote, Quoted.between], by decide⟩

/-- A text that does not end in white space is not trimmed. -/
theorem trimEnd_eq_self {s : String} {text : List Char} {c : Char} (hs : s.toList = text ++ [c])
    (hc : Unicode.isBlank c = false) : trimEnd s = s := by
  have htrim : s.toList.rdropWhile Unicode.isBlank = s.toList := by
    rw [hs, List.rdropWhile_concat_neg _ _ _ (by simp [hc])]
  rw [trimEnd, ← List.rdropWhile, htrim, String.ofList_toList]

/-- A cell in its column, with the two spaces behind it. -/
def column (width : Nat) (cell : String) : List Char :=
  (pad width cell ++ "  ").toList

theorem padded_column (width : Nat) (cell : String) : Padded cell (column width cell) :=
  ⟨width - cell.length + 2, Nat.le_add_left _ _, by simp [column, pad, List.replicate_add]⟩

theorem length_column {width : Nat} {cell : String} (h : cell.length ≤ width) :
    (column width cell).length = width + 2 := by
  have hcell : cell.toList.length = cell.length := String.length_toList
  simp [column, pad]
  omega

theorem lineFeed_not_mem_column {width : Nat} {cell : String} (h : '\n' ∉ cell.toList) :
    '\n' ∉ column width cell := by
  simp [column, pad, h]

/-- Padded cells and a last one are cut apart where each of the padded ones ends. -/
theorem Offsets.cuts_append {r : Row} {u v w : List Char} (hu : Padded r.position u)
    (hv : Padded r.kind v) (hw : Padded r.value w) :
    Offsets.Cuts ⟨u.length, (u ++ v).length, (u ++ v ++ w).length⟩
      (u ++ v ++ w ++ r.literal.toList) r := by
  refine ⟨?_, ?_, ?_, List.drop_left⟩
  · rw [List.append_assoc, List.append_assoc, List.take_left]
    exact hu
  · rw [List.append_assoc (u ++ v), List.take_left, List.drop_left]
    exact hv
  · rw [List.take_left, List.drop_left]
    exact hw

namespace Layout

variable {l : Layout} {r : Row}

/-- Where the cells begin in the columns of a layout. -/
def offsets (l : Layout) : Offsets where
  kind := l.position + 2
  value := l.position + 2 + (l.kind + 2)
  literal := l.position + 2 + (l.kind + 2) + (l.value + 2)

theorem toList_cells : (l.cells r).toList = column l.position r.position ++ column l.kind r.kind ++
    column l.value r.value ++ r.literal.toList := by
  simp [cells, column]

/-- The line of a row that fits falls into its cells. -/
theorem cuts_cells (h : r.FitsIn l) : l.offsets.Cuts (l.cells r).toList r := by
  have hoffsets : l.offsets = ⟨(column l.position r.position).length,
      (column l.position r.position ++ column l.kind r.kind).length,
      (column l.position r.position ++ column l.kind r.kind ++ column l.value r.value).length⟩ := by
    simp only [offsets, List.length_append, length_column h.position, length_column h.kind,
      length_column h.value]
  rw [toList_cells, hoffsets]
  exact Offsets.cuts_append (padded_column _ _) (padded_column _ _) (padded_column _ _)

/-- A row that does not end in white space is not trimmed. -/
theorem line_eq (h : r.EndsVisibly) : l.line r = l.cells r ++ "\n" := by
  obtain ⟨text, c, htext, hc⟩ := h
  have hcells : (l.cells r).toList = column l.position r.position ++ column l.kind r.kind ++
      column l.value r.value ++ text ++ [c] := by
    rw [toList_cells, htext, List.append_assoc _ text]
  rw [line, trimEnd_eq_self hcells hc]

theorem lineFeed_not_mem_cells (hposition : '\n' ∉ r.position.toList) (hkind : '\n' ∉ r.kind.toList)
    (hvalue : '\n' ∉ r.value.toList) (hliteral : '\n' ∉ r.literal.toList) :
    '\n' ∉ (l.cells r).toList := by
  simp [toList_cells, lineFeed_not_mem_column, hposition, hkind, hvalue, hliteral]

end Layout

/-! ### Tables -/

/-- Lines beneath one another. -/
def stacked (lines : List (List Char)) : List Char :=
  lines.flatMap (· ++ ['\n'])

/-- The lines of a token: its row and the texts of its diagnostics. -/
def tokenLines (l : Layout) (t : Token) : List (List Char) :=
  (l.cells (Row.ofToken t)).toList :: t.diagnostics.map fun d => d.text.toList

/-- The lines of a table: the header and the lines of the tokens. -/
def tableLines (l : Layout) (tokens : List Token) : List (List Char) :=
  (l.cells Row.header).toList :: tokens.flatMap (tokenLines l)

theorem splitOn_stacked {lines : List (List Char)} (h : ∀ line ∈ lines, '\n' ∉ line) :
    (stacked lines).splitOn '\n' = lines ++ [[]] := by
  induction lines with
  | nil => rfl
  | cons line lines ih =>
    obtain ⟨hline, hlines⟩ := List.forall_mem_cons.mp h
    have hstacked : stacked (line :: lines) = line ++ '\n' :: stacked lines := by simp [stacked]
    rw [hstacked, List.splitOn_append_cons_self, List.splitOn_eq_singleton hline, ih hlines]
    rfl

theorem toList_lines (l : Layout) (t : Token) :
    (lines false l t).toList = stacked (tokenLines l t) := by
  simp [lines, Layout.line_eq (endsVisibly_ofToken t), report, Colour.inRed, tokenLines, stacked,
    String.toList_join, List.flatMap_map]

theorem toList_table (l : Layout) (tokens : List Token) :
    (l.line Row.header ++ String.join (tokens.map (lines false l))).toList =
      stacked (tableLines l tokens) := by
  simp [Layout.line_eq endsVisibly_header, tableLines, stacked, String.toList_join,
    List.flatMap_map, List.flatMap_assoc, toList_lines]

/-- Each line of a table is a single line. -/
theorem lineFeed_not_mem_tableLines {tokens : List Token} (h : ∀ t ∈ tokens, t.Unbroken)
    (l : Layout) : ∀ line ∈ tableLines l tokens, '\n' ∉ line := by
  refine List.forall_mem_cons.mpr ⟨?_, List.forall_mem_flatMap.mpr fun t ht => ?_⟩
  · exact Layout.lineFeed_not_mem_cells (by decide) (by decide) (by decide) (by decide)
  · have hcells : '\n' ∉ (l.cells (Row.ofToken t)).toList :=
      Layout.lineFeed_not_mem_cells (h t ht).position.text (h t ht).kind
        (lineFeed_not_mem_quote t.value) (lineFeed_not_mem_quote t.literal)
    refine List.forall_mem_cons.mpr ⟨hcells, List.forall_mem_map.mpr fun d hd => ?_⟩
    exact ((h t ht).diagnostics d hd).text

theorem lists_tokenLines {l : Layout} {tokens : List Token}
    (h : ∀ t ∈ tokens, (Row.ofToken t).FitsIn l) :
    l.offsets.Lists tokens (tokens.flatMap (tokenLines l)) := by
  induction tokens with
  | nil => exact .nil
  | cons t tokens ih =>
    obtain ⟨ht, htokens⟩ := List.forall_mem_cons.mp h
    exact .cons (Layout.cuts_cells ht) (ih htokens)

/-- The columns that are made for the header and for tokens. -/
def layoutOf (tokens : List Token) : Layout :=
  .ofRows (Row.header :: tokens.map Row.ofToken)

theorem isAllowed_layoutOf_iff {tokens : List Token} :
    (layoutOf tokens).isAllowed = true ↔ ∀ t ∈ tokens, (Row.ofToken t).FitsIn .widest := by
  rw [layoutOf, Layout.isAllowed_ofRows_iff, List.forall_mem_cons, List.forall_mem_map]
  exact and_iff_right fitsIn_header

theorem render_eq_ok {tokens : List Token} (coloured : Bool)
    (h : ∀ t ∈ tokens, (Row.ofToken t).FitsIn .widest) :
    render coloured tokens = .ok ((layoutOf tokens).line Row.header ++
      String.join (tokens.map (lines coloured (layoutOf tokens)))) := by
  have hfit : Layout.fit (Row.header :: tokens.map Row.ofToken) = .ok (layoutOf tokens) :=
    if_pos (isAllowed_layoutOf_iff.mpr h)
  rw [render, hfit]
  rfl

theorem render_eq_error {tokens : List Token} (coloured : Bool)
    (h : ¬∀ t ∈ tokens, (Row.ofToken t).FitsIn .widest) :
    render coloured tokens = .error .columnTooWide := by
  have hfit : Layout.fit (Row.header :: tokens.map Row.ofToken) = .error .columnTooWide :=
    if_neg fun hallowed => h (isAllowed_layoutOf_iff.mp hallowed)
  rw [render, hfit]
  rfl

/-- Let the kinds, the names of positions, the messages and the causes of tokens have no line feed.
There is a table of the tokens without colours that is aligned if, and only if, no position, kind
and quoted value exceeds the greatest width: its lines are the header and one for each token and
each diagnostic, the diagnostics of a token are right behind its row, and the header and all rows
fall into their cells at the same offsets. -/
theorem aligned_iff_fits (tokens : List Token) (h : ∀ t ∈ tokens, t.Unbroken) :
    (∃ text, render false tokens = .ok text ∧ Aligned tokens text) ↔
      ∀ t ∈ tokens, (Row.ofToken t).FitsIn .widest := by
  constructor
  · rintro ⟨text, hrender, -⟩
    by_contra hwide
    rw [render_eq_error false hwide] at hrender
    cases hrender
  · intro hfits
    -- The header and all rows share the columns that are made for all of them.
    have hmem (r : Row) (hr : r ∈ Row.header :: tokens.map Row.ofToken) :
        r.FitsIn (layoutOf tokens) := Layout.fitsIn_ofRows hr
    have hbody : (layoutOf tokens).offsets.Lists tokens
        (tokens.flatMap (tokenLines (layoutOf tokens))) :=
      lists_tokenLines fun t ht => hmem _ (List.mem_cons_of_mem _ (List.mem_map_of_mem ht))
    refine ⟨_, render_eq_ok false hfits, (layoutOf tokens).offsets, _, _, ?_, ?_,
      Layout.cuts_cells (hmem _ List.mem_cons_self), hbody⟩
    · rw [toList_table, splitOn_stacked (lineFeed_not_mem_tableLines h _), tableLines]
    · rw [List.length_cons, hbody.length]
      omega

/-- Two tokens with line feeds, white space at the end of a literal, a position without column and
diagnostics. -/
def unevenSample : List Token := [
  { value := "a\n", literal := "a\n  ", kind := "word", position := ⟨some "f", 1, 1⟩ },
  { value := "é", literal := "é ", position := ⟨none, 2, 0⟩, diagnostics := [
      ⟨⟨none, 2, 1⟩, .unexpected "\n", none⟩,
      ⟨⟨some "f", 2, 1⟩, .unreadable, some "closed"⟩] }]

/-- The table of the two tokens. -/
def unevenTable : String :=
  "Pos    Type  Value  Literal\n" ++
  "f:1:1  word  \"a\\n\"  \"a\\n  \"\n" ++
  "2            \"é\"    \"é \"\n" ++
  "2:1: error: unexpected \"\\n\"\n" ++
  "f:2:1: error: error reading stream: closed\n"

/-- The two tokens have an aligned table of five lines. -/
theorem aligned_iff_fits_unevenSample :
    (∀ t ∈ unevenSample, t.Unbroken) ∧ (∀ t ∈ unevenSample, (Row.ofToken t).FitsIn .widest) ∧
      render false unevenSample = .ok unevenTable ∧ Aligned unevenSample unevenTable := by
  have hname : ∀ name ∈ some "f", '\n' ∉ name.toList := fun _ hmem => by cases hmem; decide
  have hcause : ∀ cause ∈ some "closed", '\n' ∉ cause.toList := fun _ hmem => by
    cases hmem
    decide
  have hnone : ∀ name ∈ (none : Option String), '\n' ∉ name.toList := fun _ hmem => by cases hmem
  have hunbroken : ∀ t ∈ unevenSample, t.Unbroken := by
    refine List.forall_mem_cons.mpr ⟨⟨by decide, hname, List.forall_mem_nil _⟩,
      List.forall_mem_singleton.mpr ⟨by decide, hnone, ?_⟩⟩
    refine List.forall_mem_cons.mpr ⟨⟨hnone, by decide +kernel, hnone⟩,
      List.forall_mem_singleton.mpr ⟨hname, by decide +kernel, hcause⟩⟩
  have hfits : ∀ t ∈ unevenSample, (Row.ofToken t).FitsIn .widest :=
    List.forall_mem_cons.mpr ⟨⟨by decide, by decide, by decide +kernel⟩,
      List.forall_mem_singleton.mpr ⟨by decide, by decide, by decide +kernel⟩⟩
  have htable : render false unevenSample = .ok unevenTable := by decide +kernel
  obtain ⟨text, hrender, haligned⟩ := (aligned_iff_fits unevenSample hunbroken).mpr hfits
  obtain rfl : text = unevenTable := Except.ok.inj (hrender.symm.trans htable)
  exact ⟨hunbroken, hfits, htable, haligned⟩

/-! ### Tokens that are too wide -/

theorem length_le_length_escaped (mark : Char) (text : List Char) :
    text.length ≤ (text.flatMap (Quoted.escape mark)).length := by
  have hescape (c : Char) : Quoted.escape mark c ≠ [] := by
    unfold Quoted.escape
    split_ifs <;> simp
  induction text with
  | nil => exact Nat.le_refl 0
  | cons c text ih =>
    have hpos := List.length_pos_iff.mpr (hescape c)
    rw [List.flatMap_cons, List.length_append, List.length_cons]
    omega

/-- A quoted text has two code points more than the text, or still more. -/
theorem length_add_two_le_length_quote (text : String) :
    text.length + 2 ≤ (quote text).length := by
  have hescaped := length_le_length_escaped '\x22' text.toList
  rw [String.length_toList] at hescaped
  rw [quote, Quoted.between, String.length_ofList, List.length_cons, List.length_append,
    List.length_singleton]
  omega

/-- There is no table of tokens one of which has a value that is too long. -/
theorem render_eq_error_of_length {tokens : List Token} {t : Token} (ht : t ∈ tokens)
    (hvalue : maxWidth < t.value.length + 2) (coloured : Bool) :
    render coloured tokens = .error .columnTooWide := by
  refine render_eq_error coloured fun hfits => ?_
  have hle : (quote t.value).length ≤ maxWidth := (hfits t ht).value
  exact absurd (length_add_two_le_length_quote t.value) (by omega)

/-- A token whose value and literal are a run of `n` letters. -/
def runSample (n : Nat) : Token where
  value := String.ofList (List.replicate n 'a')
  literal := String.ofList (List.replicate n 'a')
  kind := "x"
  position := ⟨none, 1, 1⟩

theorem unbroken_runSample (n : Nat) : (runSample n).Unbroken where
  kind := (by decide : '\n' ∉ "x".toList)
  position := fun _ hmem => absurd hmem (Option.not_mem_none _)
  diagnostics := List.forall_mem_nil _

/-- A run of 65534 letters has no table, since the quoted run has 65536 code points. -/
theorem no_table_runSample :
    (∀ t ∈ [runSample 65534], t.Unbroken) ∧
      render false [runSample 65534] = .error .columnTooWide ∧
      ¬∃ text, render false [runSample 65534] = .ok text ∧ Aligned [runSample 65534] text := by
  have hlength : (runSample 65534).value.length = 65534 := by
    rw [runSample, String.length_ofList, List.length_replicate]
  have herror : render false [runSample 65534] = .error .columnTooWide :=
    render_eq_error_of_length List.mem_cons_self (by rw [hlength]; decide) false
  refine ⟨List.forall_mem_singleton.mpr (unbroken_runSample _), herror, ?_⟩
  rintro ⟨text, hrender, -⟩
  rw [herror] at hrender
  cases hrender

end Table

end Lexing
