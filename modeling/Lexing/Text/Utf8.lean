/-!
# UTF-8

Bytes are read one at a time. A lead byte announces how many continuation bytes follow it, and
the code point is assembled from the bits of all of them. `Sequence` is such a sequence while it
is being read.

Malformed bytes are marked rather than dropped: `marks` gives one mark per code point and one per
longest run of bytes that begins a well-formed sequence but does not complete it. Strict decoding
refuses every text with such a run, lossy decoding puts U+FFFD in its place.

## Main definitions

* `Sequence` : a multi-byte sequence that is being read.
* `decode?` : the code points of well-formed bytes.
* `decodeLossy` : the code points of arbitrary bytes.
* `encode` : the bytes of a list of code points.
-/

namespace Lexing.Utf8

/-- The code point that stands for malformed bytes. -/
def replacement : Char := '\uFFFD'

/-- The bytes of a list of code points. -/
def encode (text : List Char) : List UInt8 :=
  text.flatMap String.utf8EncodeChar

/-- The code point with number `n`, if there is one. Surrogates are not code points. -/
def scalar? (n : Nat) : Option Char :=
  if h : n.isValidChar then some (Char.ofNatAux n h) else none

/-- Whether a byte can only stand inside a multi-byte sequence. -/
def isContinuation (b : UInt8) : Bool :=
  0x80 ≤ b && b ≤ 0xBF

/-- A multi-byte sequence that is being read. -/
structure Sequence where
  /-- The number of continuation bytes that have not been read. -/
  missing : Nat
  /-- The number assembled from the bytes read. -/
  code : Nat
  /-- The smallest code point that needs a sequence of this length. -/
  least : Nat
  deriving DecidableEq, Repr

namespace Sequence

/-- The sequence that a lead byte begins. Bytes that only overlong or out-of-range sequences could
begin with are no lead bytes. -/
def ofLead? (b : UInt8) : Option Sequence :=
  if 0xC2 ≤ b ∧ b ≤ 0xDF then some ⟨1, b.toNat - 0xC0, 0x80⟩
  else if 0xE0 ≤ b ∧ b ≤ 0xEF then some ⟨2, b.toNat - 0xE0, 0x800⟩
  else if 0xF0 ≤ b ∧ b ≤ 0xF4 then some ⟨3, b.toNat - 0xF0, 0x10000⟩
  else none

/-- Reads one continuation byte. -/
def push (q : Sequence) (b : UInt8) : Sequence :=
  { q with missing := q.missing - 1, code := q.code * 64 + (b.toNat - 0x80) }

/-- The code point of a complete sequence. There is none if the sequence is overlong or denotes a
surrogate or a number beyond the last code point. -/
def char? (q : Sequence) : Option Char :=
  if q.least ≤ q.code then scalar? q.code else none

/-- Whether some choice of the missing bytes makes the sequence well formed: not all of its
completions are too small, too large or surrogates. -/
def isViable (q : Sequence) : Bool :=
  let first := q.code <<< (6 * q.missing)
  let last := first + (1 <<< (6 * q.missing)) - 1
  q.least ≤ last && first ≤ 0x10FFFF && !(0xD800 ≤ first && last ≤ 0xDFFF)

end Sequence

/-! ### Decoding byte by byte -/

/-- Reads a byte where a sequence may begin. The result is what the byte completes and the sequence
that it begins. -/
def enter (b : UInt8) : List (Option Char) × Option Sequence :=
  if b < 0x80 then ([some (Char.ofUInt8 b)], none)
  else match Sequence.ofLead? b with
    | some q => ([], some q)
    | none => ([none], none)

/-- Reads a byte. A byte that cannot go on with the sequence being read ends it as an unfinished run
and is read again where a sequence may begin. -/
def step : Option Sequence → UInt8 → List (Option Char) × Option Sequence
  | none, b => enter b
  | some q, b =>
    if isContinuation b && (q.push b).isViable then
      if (q.push b).missing = 0 then ([(q.push b).char?], none) else ([], some (q.push b))
    else (none :: (enter b).1, (enter b).2)

/-- Decodes bytes, given the sequence being read. Each code point gives `some` and each longest
unfinished run gives `none`. -/
def marksFrom : Option Sequence → List UInt8 → List (Option Char)
  | none, [] => []
  | some _, [] => [none]
  | state, b :: bs => (step state b).1 ++ marksFrom (step state b).2 bs

/-- Decodes bytes. Each code point gives `some` and each longest unfinished run gives `none`. -/
def marks (bytes : List UInt8) : List (Option Char) :=
  marksFrom none bytes

/-- The code points of well-formed bytes. -/
def decode? (bytes : List UInt8) : Option (List Char) :=
  (marks bytes).mapM id

/-- The code points of arbitrary bytes, with U+FFFD for each longest unfinished run. -/
def decodeLossy (bytes : List UInt8) : List Char :=
  (marks bytes).map (·.getD replacement)

end Lexing.Utf8
