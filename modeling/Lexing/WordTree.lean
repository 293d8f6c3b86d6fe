/-!
# Word trees

A word tree holds a finite set of non-empty words, with common beginnings shared, and finds the
longest of them at the beginning of a text. A node stands for one code point; its children go on
with the word and its siblings offer other code points in its place.

## Main definitions

* `WordTree.insert`, `WordTree.ofWords` : the tree of given words.
* `WordTree.longest` : the length of the longest word at the beginning of a text.
-/

namespace Lexing

/-- A finite set of non-empty words. -/
inductive WordTree where
  /-- No word. -/
  | empty
  /-- Words that begin with `label`, alone if `ends` and followed by a word of `children`, and the
  words of `siblings`. -/
  | node (label : Char) (ends : Bool) (children siblings : WordTree)
  deriving DecidableEq, Repr

namespace WordTree

/-- The tree of a single word. The empty word gives the empty tree. -/
def ofWord : List Char → WordTree
  | [] => empty
  | c :: cs => node c cs.isEmpty (ofWord cs) empty

/-- Adds a word. The empty word is not added. -/
def insert : WordTree → List Char → WordTree
  | empty, word => ofWord word
  | node label ends children siblings, [] => node label ends children siblings
  | node label ends children siblings, c :: cs =>
    if label = c then node label (ends || cs.isEmpty) (children.insert cs) siblings
    else node label ends children (siblings.insert (c :: cs))

/-- The tree of a list of words. -/
def ofWords (words : List String) : WordTree :=
  words.foldl (fun tree word => tree.insert word.toList) empty

/-- The length of the longest word at the beginning of a text, or 0 if there is none. -/
def longest : WordTree → List Char → Nat
  | empty, _ => 0
  | node .., [] => 0
  | node label ends children siblings, c :: cs =>
    if label = c then
      match children.longest cs with
      | 0 => if ends then 1 else 0
      | n + 1 => n + 2
    else siblings.longest (c :: cs)

end WordTree

end Lexing
