/-!
# Search trees of code point ranges

A property of code points is given by a sorted list of disjoint ranges. The ranges are held in a
balanced search tree, so that membership takes a number of comparisons logarithmic in the number
of ranges.

## Main definitions

* `RangeTree.contains` : whether a number lies in one of the ranges.
* `RangeTree.ofRanges` : the tree of a sorted list of ranges.
-/

namespace Lexing.Unicode

/-- A search tree whose nodes are ranges with both ends included. -/
inductive RangeTree where
  | leaf
  | node (left : RangeTree) (lo hi : Nat) (right : RangeTree)

namespace RangeTree

/-- Whether `n` lies in a range of the tree. -/
def contains : RangeTree → Nat → Bool
  | leaf, _ => false
  | node left lo hi right, n =>
    if n < lo then left.contains n else if n ≤ hi then true else right.contains n

/-- A tree of height at most `h` over the first ranges of a list, with the ranges left over. -/
def grow : Nat → List (Nat × Nat) → RangeTree × List (Nat × Nat)
  | 0, ranges => (leaf, ranges)
  | h + 1, ranges =>
    match grow h ranges with
    | (left, []) => (left, [])
    | (left, (lo, hi) :: more) =>
      let (right, unused) := grow h more
      (node left lo hi right, unused)

/-- The tree of a sorted list of disjoint ranges. Its height is the binary length of the list's
length, so that no range is left over. -/
def ofRanges (ranges : List (Nat × Nat)) : RangeTree :=
  (grow (Nat.log2 ranges.length + 1) ranges).1

end RangeTree

end Lexing.Unicode
