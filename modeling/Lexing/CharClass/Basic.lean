import Lexing.Text.Inspect

/-!
# Classes of code points

A class is a decidable set of code points, kept as a description of how it was built so that it can
be shown. The end of the text belongs to no class.

## Main definitions

* `CharClass.contains` : membership of a code point.
* `CharClass.covers` : membership of what may be the end of the text.
* `CharClass.oneOf`, `CharClass.complement`, `CharClass.anyOf` : classes in simplest form.
* `CharClass.runs` : the members among consecutive numbers, as maximal runs.
* `CharClass.inspect` : the description of a class.
-/

namespace Lexing

/-- A decidable set of code points. -/
inductive CharClass where
  /-- The empty class. -/
  | empty
  /-- A class of the catalog. -/
  | listed (member : Char → Bool)
  /-- A single code point. -/
  | single (c : Char)
  /-- The code points of a list. -/
  | set (cs : List Char)
  /-- The code points from `lo` to `hi`, both included. -/
  | range (lo hi : Char)
  /-- The code points outside a class. -/
  | compl (c : CharClass)
  /-- The code points of several classes. -/
  | union (cs : List CharClass)
  /-- The code points with a property given by the user. -/
  | satisfying (member : Char → Bool)

namespace CharClass

instance : Inhabited CharClass := ⟨.empty⟩

mutual

/-- Whether a code point belongs to the class. -/
def contains : CharClass → Char → Bool
  | .empty, _ => false
  | .listed member, c => member c
  | .single d, c => c == d
  | .set cs, c => cs.contains c
  | .range lo hi, c => lo ≤ c && c ≤ hi
  | .compl k, c => !k.contains c
  | .union ks, c => containsAny ks c
  | .satisfying member, c => member c

/-- Whether a code point belongs to one of several classes. -/
def containsAny : List CharClass → Char → Bool
  | [], _ => false
  | k :: ks, c => k.contains c || containsAny ks c

end

/-- Whether there is a code point and it belongs to the class. -/
def covers (k : CharClass) (c : Option Char) : Bool :=
  c.any k.contains

/-- The code points of a list. -/
def oneOf : List Char → CharClass
  | [] => .empty
  | [c] => .single c
  | cs => .set cs

/-- The code points outside a class. Two complements cancel. -/
def complement : CharClass → CharClass
  | .compl k => k
  | k => .compl k

/-- The code points of any of several classes. -/
def anyOf : List CharClass → CharClass
  | [] => .empty
  | [k] => k
  | ks => .union ks

/-! ### Members as runs -/

/-- Whether `n` is the number of a member. -/
def containsNat (k : CharClass) (n : Nat) : Bool :=
  if h : n.isValidChar then k.contains (Char.ofNatAux n h) else false

/-- Extends the runs before `n`, the latest first, by `n` if it is a member. -/
def extendRuns (k : CharClass) (runs : List (Nat × Nat)) (n : Nat) : List (Nat × Nat) :=
  if k.containsNat n then
    match runs with
    | (first, last) :: earlier =>
      if last + 1 = n then (first, n) :: earlier else (n, n) :: runs
    | [] => [(n, n)]
  else runs

/-- The members with numbers from `lo` to `hi` as maximal runs of consecutive numbers. -/
def runs (k : CharClass) (lo hi : Nat) : List (Nat × Nat) :=
  ((List.range' lo (hi + 1 - lo)).foldl k.extendRuns []).reverse

/-! ### Inspection -/

mutual

/-- How the class was built. Properties given by functions are not shown. -/
def inspect : CharClass → String
  | .empty => "Class::NONE"
  | .listed _ => Inspect.tuple "Class" ["fn"]
  | .single c => Inspect.tuple "Class" [quoteChar c]
  | .set cs => Inspect.tuple "Class" [Inspect.list (cs.map quoteChar)]
  | .range lo hi => Inspect.tuple "Class" [quoteChar lo ++ "..=" ++ quoteChar hi]
  | .compl k => "!" ++ k.inspect
  | .union ks => Inspect.tuple "Or" [Inspect.list (inspectAll ks)]
  | .satisfying _ => Inspect.tuple "Class" ["closure"]

/-- How each of several classes was built. -/
def inspectAll : List CharClass → List String
  | [] => []
  | k :: ks => k.inspect :: inspectAll ks

end

end CharClass

end Lexing
