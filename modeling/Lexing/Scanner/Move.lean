import Lexing.Scanner.Basic

/-!
# Repeated moves

A move is an operation on a scanner that consumes the current code point or gives code points back.
Moves are repeated a number of times, or as long as the current code point is in a class, or until
it is.

The upcoming text bounds the number of repetitions: a move that consumes a code point can be made
only so often, and rewinding has no effect when it is repeated.
-/

namespace Lexing

/-- An operation that moves a scanner. -/
inductive Move where
  | keep
  | skip
  | discard
  | rewind
  deriving DecidableEq, Repr

/-- Makes a move. -/
def Move.apply : Move → Scanner → Scanner
  | keep => Scanner.keep
  | skip => Scanner.skip
  | discard => Scanner.discard
  | rewind => Scanner.rewind

namespace Scanner

/-- Makes a move `n` times. -/
def times : Nat → Move → Scanner → Scanner
  | 0, _, s => s
  | n + 1, m, s => times n m (m.apply s)

/-- Makes a move as long as the current code point satisfies `p`, at most once per code point of
`bound`. -/
def moveWhile (p : Char → Bool) (m : Move) : List Char → Scanner → Scanner
  | [], s => s
  | _ :: bound, s => if s.current?.any p then moveWhile p m bound (m.apply s) else s

/-- Makes a move as long as the current code point is in a class. -/
def whileIn (k : CharClass) (m : Move) (s : Scanner) : Scanner :=
  moveWhile k.contains m s.upcoming.chars s

/-- Makes a move until the current code point is in a class or the end of the text is reached. -/
def untilIn (k : CharClass) (m : Move) (s : Scanner) : Scanner :=
  moveWhile (fun c => !k.contains c) m s.upcoming.chars s

end Scanner

end Lexing
