import Lexing.Lexicon

/-!
# Token streams

A token stream hands out the tokens of a scanner and a lexicon one after another and shows the next
two of them. Once the token for the end of the text is reached, it is handed out again and again and
the lexicon is not asked any more.

## Main definitions

* `TokenStream.ofScanner` : scans the first two tokens.
* `TokenStream.advance` : hands out a token, which may be the end.
* `TokenStream.next?` : hands out a token before the end.
* `TokenStream.all` : hands out all tokens before the end.
* `TokenStream.allWithin` : the same with a bound on their number.
-/

namespace Lexing

/-- A stream of tokens that shows the next two. -/
structure TokenStream where
  /-- The lexicon that makes the tokens. -/
  lexicon : Lexicon
  /-- The scanner after the two tokens shown. -/
  scanner : Scanner
  /-- The token that is handed out next. -/
  current : Token
  /-- The token after it. -/
  following : Token

namespace TokenStream

/-- The token after `t`, which is `t` again at the end of the text. -/
def tokenAfter (x : Lexicon) (flags : Flags) (t : Token) (s : Scanner) :
    Except Fault (Token × Scanner) :=
  if t.isEnd then .ok (t, s) else x.next flags s

/-- The stream of a scanner and a lexicon. The first two tokens are scanned. -/
def ofScanner (x : Lexicon) (flags : Flags) (s : Scanner) : Except Fault TokenStream := do
  let (current, s) ← x.next flags s
  let (following, s) ← tokenAfter x flags current s
  return { lexicon := x, scanner := s, current, following }

/-- Whether there is a token before the end of the text. -/
def hasMore (ts : TokenStream) : Bool :=
  !ts.current.isEnd

/-- Hands out a token. At the end of the text it is the end token again. -/
def advance (ts : TokenStream) (flags : Flags) : Except Fault (Token × TokenStream) := do
  let (after, s) ← tokenAfter ts.lexicon flags ts.following ts.scanner
  return (ts.current, { ts with scanner := s, current := ts.following, following := after })

/-- Hands out a token before the end of the text. -/
def next? (ts : TokenStream) (flags : Flags) : Except Fault (Option Token × TokenStream) := do
  if ts.hasMore then
    let (t, ts) ← ts.advance flags
    return (some t, ts)
  else return (none, ts)

/-- Hands out up to `n` tokens before the end of the text, which follow `taken`. -/
def takeOnto (flags : Flags) : Nat → Array Token → TokenStream →
    Except Fault (List Token × TokenStream)
  | 0, taken, ts => .ok (taken.toList, ts)
  | n + 1, taken, ts => do
    match ← ts.next? flags with
    | (some t, ts) => takeOnto flags n (taken.push t) ts
    | (none, ts) => return (taken.toList, ts)

/-- Hands out up to `n` tokens before the end of the text. -/
def take (ts : TokenStream) (flags : Flags) (n : Nat) : Except Fault (List Token × TokenStream) :=
  takeOnto flags n #[] ts

/-- Hands out all tokens before the end of the text. More than `bound` tokens are a fault. -/
def allWithin (ts : TokenStream) (flags : Flags) (bound : Nat) :
    Except Fault (List Token × TokenStream) := do
  let (tokens, ts) ← ts.take flags bound
  if ts.hasMore then throw (.endless ts.scanner.position)
  return (tokens, ts)

/-- Hands out all tokens before the end of the text. Two tokens are shown already, and the others
are bounded by the allowance of the scanner. -/
def all (ts : TokenStream) (flags : Flags) : Except Fault (List Token × TokenStream) :=
  ts.allWithin flags (ts.scanner.allowance + 2)

end TokenStream

/-- All tokens of a scanner before the end of its text. -/
def Lexicon.tokens (x : Lexicon) (flags : Flags) (s : Scanner) : Except Fault (List Token) := do
  let (tokens, _) ← (← TokenStream.ofScanner x flags s).all flags
  return tokens

end Lexing
