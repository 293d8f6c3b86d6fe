import Lexing.Proofs.Language.Wire

/-!
# Documents are read in one way only

Two wire documents with the same text are equal. Since the tokens of JSON that are scanned from a
text are its lexemes, the text determines the lexemes, whatever texts are quoted in it. The lexemes
determine the document: where a part of a document ends is seen from the lexemes themselves, so that
a part can be split off from whatever follows it.

The document of a token leaves out the literal if it equals the value, the name of a position
without one, and the diagnostics if there are none. A field that may be left out is followed by one
with another key, or by nothing, so that it is seen whether it is there. Hence the document
determines the token up to the causes of its diagnostics.

## Main definitions

* `Lexeme.Detaches` : a part of a document can be split off from what follows it.

## Main results

* `Layout.unique` : a text determines its lexemes.
* `Wire.detaches`, `Wire.compact_inj` : a text without blanks determines its document.
* `Token.wire_inj` : a document determines its token up to causes.
* `Token.same_text_iff_agree` : lists of tokens with the same text.
-/

namespace Lexing

/-! ### From the text to the lexemes -/

/-- A text is a layout of one list of lexemes only, the tokens of JSON that are scanned from it. -/
theorem Layout.unique {ls ls' : List Lexeme} {text : List Char} (h : Layout ls text)
    (h' : Layout ls' text) : ls = ls' := by
  rw [← String.toList_ofList (l := text)] at h h'
  obtain ⟨tokens, htokens, hls, -⟩ := Language.Json.exists_tokens_of_layout .off "" h
  obtain ⟨tokens', htokens', hls', -⟩ := Language.Json.exists_tokens_of_layout .off "" h'
  obtain rfl := Except.ok.inj (htokens.symm.trans htokens')
  exact hls.symm.trans hls'

/-! ### From the lexemes to the document -/

namespace Lexeme

theorem mark_inj {c d : Char} : mark c = mark d ↔ c = d := by
  simp [mark, String.singleton_inj]

theorem text_inj {s s' : String} : text s = text s' ↔ s = s' := by
  simp [text]

theorem number_inj {n n' : Nat} : number n = number n' ↔ n = n' := by
  refine ⟨fun h => ?_, congrArg number⟩
  have hdigits : Nat.toDigits 10 n = Nat.toDigits 10 n' := by
    rw [← Nat.toList_repr, ← Nat.toList_repr]
    exact congrArg (·.value.toList) h
  rw [← Nat.ofDigitChars_ten_toDigits (n := n), hdigits, Nat.ofDigitChars_ten_toDigits]

theorem text_ne_number (s : String) (n : Nat) : text s ≠ number n := by
  simp [text, number, Kind.string, Kind.integer]

theorem text_ne_mark (s : String) (c : Char) : text s ≠ mark c := by
  intro h
  have hkind := congrArg (·.kind.toList) h
  simp [text, mark, Kind.string] at hkind

theorem number_ne_mark (n : Nat) (c : Char) : number n ≠ mark c := by
  intro h
  have hkind := congrArg (·.kind.toList) h
  simp [number, mark, Kind.integer] at hkind

variable {α : Type} {f : α → List Lexeme} {left right : Char} {rest rest' : List Lexeme}
  {xs ys : List α}

/-- The lexemes of `x` can be split off from what follows them: no other value has lexemes that the
same list begins with. -/
def Detaches (f : α → List Lexeme) (x : α) : Prop :=
  ∀ y rest rest', f x ++ rest = f y ++ rest' → x = y ∧ rest = rest'

/-- What follows the first of several items between two marks: the other items, each after a comma,
and the second mark. -/
def followed (right : Char) (rest : List Lexeme) : List (List Lexeme) → List Lexeme
  | [] => mark right :: rest
  | item :: items => mark ',' :: (item ++ followed right rest items)

theorem enclosed_cons_append (item : List Lexeme) (items : List (List Lexeme)) :
    enclosed left right (item :: items) ++ rest =
      mark left :: (item ++ followed right rest items) := by
  induction items generalizing item with
  | nil => simp [enclosed, followed]
  | cons next items ih =>
    have hnext := (List.cons.inj (ih next)).2
    simpa [enclosed, followed, List.intercalate_cons_cons] using hnext

/-- The items after the first one can be told from the lexemes. -/
theorem followed_inj (hright : right ≠ ',') (hxs : ∀ x ∈ xs, Detaches f x)
    (h : followed right rest (xs.map f) = followed right rest' (ys.map f)) :
    xs = ys ∧ rest = rest' := by
  induction xs generalizing ys with
  | nil =>
    cases ys with
    | nil => exact ⟨rfl, (List.cons.inj h).2⟩
    | cons y ys => exact absurd (mark_inj.mp (List.cons.inj h).1) hright
  | cons x xs ih =>
    cases ys with
    | nil => exact absurd (mark_inj.mp (List.cons.inj h).1).symm hright
    | cons y ys =>
      obtain ⟨hx, hxs⟩ := List.forall_mem_cons.mp hxs
      obtain ⟨rfl, hrest⟩ := hx y _ _ (List.cons.inj h).2
      obtain ⟨rfl, rfl⟩ := ih hxs hrest
      exact ⟨rfl, rfl⟩

/-- Items between two marks can be told from the lexemes, if none begins with the second mark. -/
theorem enclosed_inj (hright : right ≠ ',')
    (hhead : ∀ x, ∃ l ls, f x = l :: ls ∧ l ≠ mark right) (hxs : ∀ x ∈ xs, Detaches f x)
    (h : enclosed left right (xs.map f) ++ rest = enclosed left right (ys.map f) ++ rest') :
    xs = ys ∧ rest = rest' := by
  -- An item after the first mark is told from the second mark by its first lexeme.
  have hne (x : α) {ls ms : List Lexeme} : mark right :: ls ≠ f x ++ ms := by
    obtain ⟨l, _, hx, hl⟩ := hhead x
    rw [hx]
    exact fun heq => hl (List.cons.inj heq).1.symm
  cases xs with
  | nil =>
    cases ys with
    | nil => exact ⟨rfl, (List.cons.inj (List.cons.inj h).2).2⟩
    | cons y ys =>
      rw [List.map_cons, enclosed_cons_append] at h
      exact absurd (List.cons.inj h).2 (hne y)
  | cons x xs =>
    cases ys with
    | nil =>
      rw [List.map_cons, enclosed_cons_append] at h
      exact absurd (List.cons.inj h).2.symm (hne x)
    | cons y ys =>
      rw [List.map_cons, List.map_cons, enclosed_cons_append, enclosed_cons_append] at h
      obtain ⟨hx, hxs⟩ := List.forall_mem_cons.mp hxs
      obtain ⟨rfl, hrest⟩ := hx y _ _ (List.cons.inj h).2
      obtain ⟨rfl, rfl⟩ := followed_inj hright hxs hrest
      exact ⟨rfl, rfl⟩

end Lexeme

namespace Wire

open Lexeme

/-- The lexemes of a field of a record. -/
def lexemesOfField (field : String × Wire) : List Lexeme :=
  .text field.1 :: .mark ':' :: field.2.lexemes

theorem itemLexemes_eq (items : List Wire) : itemLexemes items = items.map lexemes := by
  simpa using itemLexemes_map id items

theorem fieldLexemes_eq (fields : List (String × Wire)) :
    fieldLexemes fields = fields.map lexemesOfField := by
  induction fields with
  | nil => rfl
  | cons field fields ih =>
    rw [List.map_cons, ← ih]
    rfl

/-- A document begins with a text, a number or an opening mark. -/
theorem exists_head (w : Wire) : ∃ l ls, w.lexemes = l :: ls ∧ l ≠ mark ']' := by
  cases w with
  | text s => exact ⟨_, _, rfl, text_ne_mark s _⟩
  | number n => exact ⟨_, _, rfl, number_ne_mark n _⟩
  | list | record => exact ⟨_, _, rfl, fun h => absurd (mark_inj.mp h) (by decide)⟩

/-- A field can be split off if its value can. -/
theorem detaches_field {key : String} {value : Wire} (h : Detaches lexemes value) :
    Detaches lexemesOfField (key, value) := by
  rintro ⟨key', value'⟩ rest rest' heq
  obtain ⟨hkey, heq⟩ := List.cons.inj heq
  obtain ⟨rfl, rfl⟩ := h value' rest rest' (List.cons.inj heq).2
  obtain rfl := text_inj.mp hkey
  exact ⟨rfl, rfl⟩

mutual

/-- A document can be split off from whatever follows it. -/
theorem detaches : ∀ w : Wire, Detaches lexemes w
  | .text s, w', rest, rest', h => by
    cases w' with
    | text s' =>
      obtain ⟨hs, rfl⟩ := List.cons.inj h
      exact ⟨congrArg text (text_inj.mp hs), rfl⟩
    | number n => exact absurd (List.cons.inj h).1 (text_ne_number s n)
    | list | record => exact absurd (List.cons.inj h).1 (text_ne_mark s _)
  | .number n, w', rest, rest', h => by
    cases w' with
    | text s => exact absurd (List.cons.inj h).1.symm (text_ne_number s n)
    | number n' =>
      obtain ⟨hn, rfl⟩ := List.cons.inj h
      exact ⟨congrArg number (number_inj.mp hn), rfl⟩
    | list | record => exact absurd (List.cons.inj h).1 (number_ne_mark n _)
  | .list items, w', rest, rest', h => by
    cases w' with
    | text s => exact absurd (List.cons.inj h).1.symm (text_ne_mark s _)
    | number n => exact absurd (List.cons.inj h).1.symm (number_ne_mark n _)
    | list items' =>
      rw [lexemes, lexemes, itemLexemes_eq, itemLexemes_eq] at h
      obtain ⟨rfl, rfl⟩ := enclosed_inj (by decide) exists_head (detaches_items items) h
      exact ⟨rfl, rfl⟩
    | record => exact absurd (mark_inj.mp (List.cons.inj h).1) (by decide)
  | .record fields, w', rest, rest', h => by
    cases w' with
    | text s => exact absurd (List.cons.inj h).1.symm (text_ne_mark s _)
    | number n => exact absurd (List.cons.inj h).1.symm (number_ne_mark n _)
    | list => exact absurd (mark_inj.mp (List.cons.inj h).1) (by decide)
    | record fields' =>
      rw [lexemes, lexemes, fieldLexemes_eq, fieldLexemes_eq] at h
      obtain ⟨rfl, rfl⟩ := enclosed_inj (f := lexemesOfField) (by decide)
        (fun field => ⟨_, _, rfl, text_ne_mark field.1 _⟩) (detaches_fields fields) h
      exact ⟨rfl, rfl⟩

theorem detaches_items : ∀ items : List Wire, ∀ w ∈ items, Detaches lexemes w
  | [] => List.forall_mem_nil _
  | item :: items => List.forall_mem_cons.mpr ⟨detaches item, detaches_items items⟩

theorem detaches_fields :
    ∀ fields : List (String × Wire), ∀ field ∈ fields, Detaches lexemesOfField field
  | [] => List.forall_mem_nil _
  | (_, value) :: fields =>
    List.forall_mem_cons.mpr ⟨detaches_field (detaches value), detaches_fields fields⟩

end

/-- Documents with the same text are equal. -/
theorem compact_inj {w w' : Wire} : w.compact = w'.compact ↔ w = w' := by
  refine ⟨fun h => ?_, congrArg compact⟩
  have hlexemes : w.lexemes = w'.lexemes := w.layout_compact.unique (h ▸ w'.layout_compact)
  exact (detaches w w' [] [] (congrArg (· ++ []) hlexemes)).1

/-- It is seen whether a field that may be left out is there, if the field after it has another key.
-/
theorem optional_field_inj {key next : String} (hne : key ≠ next) {a b : Option Wire} {v v' : Wire}
    {fields fields' : List (String × Wire)}
    (h : (a.map (key, ·)).toList ++ (next, v) :: fields =
      (b.map (key, ·)).toList ++ (next, v') :: fields') : a = b ∧ v = v' ∧ fields = fields' := by
  cases a with
  | none =>
    cases b with
    | none =>
      obtain ⟨hv, rfl⟩ := List.cons.inj h
      exact ⟨rfl, (Prod.mk.inj hv).2, rfl⟩
    | some b => exact absurd (congrArg Prod.fst (List.cons.inj h).1).symm hne
  | some a =>
    cases b with
    | none => exact absurd (congrArg Prod.fst (List.cons.inj h).1) hne
    | some b =>
      obtain ⟨ha, h⟩ := List.cons.inj h
      obtain ⟨hv, rfl⟩ := List.cons.inj h
      exact ⟨congrArg some (Prod.mk.inj ha).2, (Prod.mk.inj hv).2, rfl⟩

end Wire

/-! ### From the document to the token -/

theorem Position.wire_inj {p q : Position} : p.wire = q.wire ↔ p = q := by
  refine ⟨fun h => ?_, congrArg wire⟩
  have hfields (p : Position) : p.wire = .record (((p.name.map Wire.text).map ("name", ·)).toList ++
      ("line", .number p.line.toNat) :: [("column", .number p.column.toNat)]) := by
    rw [wire, Option.map_map]
    rfl
  rw [hfields, hfields, Wire.record.injEq] at h
  obtain ⟨hname, hline, hcolumn⟩ := Wire.optional_field_inj (by decide) h
  have hname : p.name = q.name := Option.map_injective (fun _ _ => Wire.text.inj) hname
  cases p
  cases q
  simp_all [UInt32.toNat_inj]

theorem Diagnostic.wire_inj {d e : Diagnostic} : d.wire = e.wire ↔ d.agrees e = true := by
  simp [wire, agrees, Position.wire_inj]

namespace Token

theorem agreeAll_iff {ds es : List Diagnostic} :
    agreeAll ds es = true ↔ ds.map Diagnostic.wire = es.map Diagnostic.wire := by
  induction ds generalizing es with
  | nil => cases es <;> simp [agreeAll]
  | cons d ds ih => cases es <;> simp [agreeAll, Diagnostic.wire_inj, ih]

/-- The literal as it stands in the document, if it is not left out. -/
def writtenLiteral (t : Token) : Option Wire :=
  if t.literal = t.value then none else some (.text t.literal)

/-- The diagnostics as they stand in the document, if they are not left out. -/
def writtenReports (t : Token) : Option Wire :=
  if t.diagnostics.isEmpty then none else some (.list (t.diagnostics.map Diagnostic.wire))

theorem wire_eq (t : Token) : t.wire = .record (("value", .text t.value) ::
    ((t.writtenLiteral.map ("literal", ·)).toList ++ ("type", .text t.kind) ::
      ("position", t.position.wire) :: (t.writtenReports.map ("diagnostics", ·)).toList)) := by
  rw [wire, writtenLiteral, writtenReports]
  split <;> split <;> rfl

theorem writtenLiteral_inj {t u : Token} (hvalue : t.value = u.value) :
    t.writtenLiteral = u.writtenLiteral ↔ t.literal = u.literal := by
  rw [writtenLiteral, writtenLiteral, hvalue]
  by_cases ht : t.literal = u.value <;> by_cases hu : u.literal = u.value
  · simp [ht, hu]
  · simp [ht, hu, Ne.symm hu]
  · simp [ht, hu]
  · simp [ht, hu]

theorem writtenReports_inj {t u : Token} :
    t.writtenReports = u.writtenReports ↔ agreeAll t.diagnostics u.diagnostics = true := by
  rw [agreeAll_iff, writtenReports, writtenReports]
  cases t.diagnostics <;> cases u.diagnostics <;> simp

theorem agrees_iff {t u : Token} : t.agrees u = true ↔ t.value = u.value ∧
    t.literal = u.literal ∧ t.kind = u.kind ∧ t.position = u.position ∧
      agreeAll t.diagnostics u.diagnostics = true := by
  simp only [agrees, Bool.and_eq_true, beq_iff_eq, and_assoc]

/-- A document determines its token up to the causes of diagnostics. -/
theorem wire_inj {t u : Token} : t.wire = u.wire ↔ t.agrees u = true := by
  rw [agrees_iff, wire_eq, wire_eq, Wire.record.injEq]
  constructor
  · intro h
    obtain ⟨hfirst, h⟩ := List.cons.inj h
    have hvalue : t.value = u.value := Wire.text.inj (Prod.mk.inj hfirst).2
    obtain ⟨hliteral, hkind, h⟩ := Wire.optional_field_inj (by decide) h
    obtain ⟨hposition, hreports⟩ := List.cons.inj h
    have hreports : t.writtenReports = u.writtenReports := by
      cases ht : t.writtenReports <;> cases hu : u.writtenReports <;> simp_all
    exact ⟨hvalue, (writtenLiteral_inj hvalue).mp hliteral, Wire.text.inj hkind,
      Position.wire_inj.mp (Prod.mk.inj hposition).2, writtenReports_inj.mp hreports⟩
  · rintro ⟨hvalue, hliteral, hkind, hposition, hreports⟩
    rw [hvalue, (writtenLiteral_inj hvalue).mpr hliteral, hkind, hposition,
      writtenReports_inj.mpr hreports]

/-- Two lists of tokens have the same text without blanks if, and only if, they agree token by
token: in value, literal, kind and position, whether named or not, and in the diagnostics up to
their causes. -/
theorem same_text_iff_agree (tokens tokens' : List Token) :
    (wireAll tokens).compact = (wireAll tokens').compact ↔
      List.Forall₂ (fun t u => t.agrees u = true) tokens tokens' := by
  rw [Wire.compact_inj, wireAll, wireAll, Wire.list.injEq, ← List.forall₂_eq_eq_eq,
    List.forall₂_map_left_iff, List.forall₂_map_right_iff]
  simp only [wire_inj]

end Token

end Lexing
