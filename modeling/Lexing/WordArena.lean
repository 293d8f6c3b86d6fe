import Lexing.Proofs.Scanner.Consumption

/-!
# Word arenas

A word arena holds the nodes of a tree of words side by side and refers to them by their indexes. An
index outside the arena has no node, and what is looked up there has no result. The longest word
that is upcoming is found by walking from the root along the upcoming code points. The walk ends
because looking at the text does not lengthen it.

## Main definitions

* `WordArena.insert?`, `WordArena.ofWords?` : the arena of given words.
* `WordArena.longest?` : the length of the longest word that is upcoming.
-/

namespace Lexing

open Scanner

/-- A node of an arena. -/
structure WordArena.Node where
  /-- The code points that words go on with, each with the index of a node. -/
  children : List (Char × Nat) := []
  /-- Whether a word ends here. -/
  ends : Bool := false

/-- Nodes of a tree of words. The root has the index 0. -/
structure WordArena where
  /-- The nodes. -/
  nodes : Array WordArena.Node := #[{}]

namespace WordArena

/-- The index of the node that the node `i` goes on to with `c`, if there is one. There is no result
if `i` is outside the arena. -/
def child? (a : WordArena) (i : Nat) (c : Char) : Option (Option Nat) :=
  a.nodes[i]?.map (·.children.lookup c)

/-- Changes the node `i`. There is no result if `i` is outside the arena. -/
def update? (a : WordArena) (i : Nat) (f : Node → Node) : Option WordArena :=
  if i < a.nodes.size then some ⟨a.nodes.modify i f⟩ else none

/-- The index of the node that the node `i` goes on to with `c`, which is added if there is none. -/
def extend? (a : WordArena) (i : Nat) (c : Char) : Option (Nat × WordArena) :=
  match a.child? i c with
  | none => none
  | some (some j) => some (j, a)
  | some none =>
    let j := a.nodes.size
    (update? ⟨a.nodes.push {}⟩ i fun n => { n with children := n.children ++ [(c, j)] }).map (j, ·)

/-- Adds a word that goes on at the node `i`. -/
def insertFrom? (a : WordArena) (i : Nat) : List Char → Option WordArena
  | [] => a.update? i fun n => { n with ends := true }
  | c :: cs =>
    match a.extend? i c with
    | none => none
    | some (j, b) => b.insertFrom? j cs

/-- Adds a word. -/
def insert? (a : WordArena) (word : List Char) : Option WordArena :=
  a.insertFrom? 0 word

/-- The arena of a list of words. -/
def ofWords? (words : List String) : Option WordArena :=
  words.foldlM (fun a word => a.insert? word.toList) {}

/-- Walks on from the node `i`, which is reached after `n` upcoming code points. The longest word so
far has the length `good`. -/
def longestFrom? (a : WordArena) (i good n : Nat) (s : Scanner) : Option (Nat × Scanner) :=
  match _h : s.peek n with
  | (none, t) => some (good, t)
  | (some c, t) =>
    match a.child? i c with
    | none => none
    | some none => some (good, t)
    | some (some j) =>
      match a.nodes[j]? with
      | none => none
      | some node => a.longestFrom? j (if node.ends then n + 1 else good) (n + 1) t
termination_by s.upcoming.chars.length - n
decreasing_by
  have hchars := (consumes_peek s n).length_le
  have hpeek := peek?_natCast s n
  simp only [peek?, _h] at hpeek
  obtain ⟨hlt, -⟩ := List.getElem?_eq_some_iff.mp hpeek.symm
  simp only [_h, List.length_nil] at hchars
  omega

/-- The length of the longest word that is upcoming, and the scanner that has looked at the text. -/
def longest? (a : WordArena) (s : Scanner) : Option (Nat × Scanner) :=
  a.longestFrom? 0 0 0 s

end WordArena

end Lexing
