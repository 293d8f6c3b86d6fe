import Lexing.Text.Utf8

/-!
# Byte sources

A byte source delivers its bytes in reads of any size. A read may also be interrupted, which means
that it has to be repeated, or it may fail. A read that delivers no bytes reports the end of the
input at that moment.

Code points are decoded one at a time, and no read is made before its bytes are needed. A
continuation byte of any value is taken into a sequence, and only the complete sequence is judged,
so that an overlong form or a surrogate is replaced as a whole. A byte that is no continuation byte
ends a sequence early and stays in the source.

## Main definitions

* `ByteSource` : the bytes already delivered and the reads to come.
* `ByteSource.peek` : the next byte, without consuming it.
* `ByteSource.decode` : the next code point.
-/

namespace Lexing

/-- What one read of a byte source gives. -/
inductive Delivery where
  /-- Bytes; the empty list reports the end of the input. -/
  | bytes (data : List UInt8)
  /-- The read has to be repeated. -/
  | interrupted
  /-- The read failed. -/
  | failed (cause : String)
  deriving DecidableEq, Repr

/-- The number of bytes of a read. -/
def Delivery.byteCount : Delivery → Nat
  | .bytes data => data.length
  | _ => 0

/-- A source of bytes. After the last of its reads it delivers no bytes. -/
structure ByteSource where
  /-- Bytes that were delivered and not consumed. -/
  buffer : List UInt8 := []
  /-- The reads to come. -/
  reads : List Delivery := []
  deriving DecidableEq, Repr

/-- What a source gives when asked for more: an item, the end of the input, or a failure. -/
inductive Pulled (α : Type) where
  | item (a : α)
  | done
  | failed (cause : String)
  deriving DecidableEq, Repr

namespace ByteSource

/-- The source that delivers all of its bytes in one read. -/
def ofBytes (data : List UInt8) : ByteSource :=
  { buffer := data }

/-- The source of the UTF-8 bytes of a text. -/
def ofString (text : String) : ByteSource :=
  ofBytes text.toUTF8.toList

/-- The number of bytes that the source can still deliver. -/
def byteCount (s : ByteSource) : Nat :=
  s.buffer.length + s.reads.foldr (fun delivery n => delivery.byteCount + n) 0

/-- Makes reads until one is not interrupted. -/
def refill : List Delivery → Pulled UInt8 × ByteSource
  | [] => (.done, {})
  | .bytes [] :: reads => (.done, { reads })
  | .bytes (b :: bs) :: reads => (.item b, { buffer := b :: bs, reads })
  | .interrupted :: reads => refill reads
  | .failed cause :: reads => (.failed cause, { reads })

/-- The next byte, which is not consumed. Reads are made if no delivered byte is left. -/
def peek (s : ByteSource) : Pulled UInt8 × ByteSource :=
  match s.buffer with
  | b :: _ => (.item b, s)
  | [] => refill s.reads

/-- Consumes the byte that `peek` showed. -/
def consume (s : ByteSource) : ByteSource :=
  { s with buffer := s.buffer.tail }

/-- Reads the `n` continuation bytes that a sequence lacks. A sequence that ends early or is not
well formed becomes U+FFFD; a failure drops the bytes read before it. -/
def complete : Nat → Utf8.Sequence → ByteSource → Pulled Char × ByteSource
  | 0, q, s => (.item (q.char?.getD Utf8.replacement), s)
  | n + 1, q, s =>
    match s.peek with
    | (.item b, s) =>
      if Utf8.isContinuation b then complete n (q.push b) s.consume
      else (.item Utf8.replacement, s)
    | (.done, s) => (.item Utf8.replacement, s)
    | (.failed cause, s) => (.failed cause, s)

/-- The next code point, which is consumed. -/
def decode (s : ByteSource) : Pulled Char × ByteSource :=
  match s.peek with
  | (.item b, s) =>
    if b < 0x80 then (.item (Char.ofUInt8 b), s.consume)
    else match Utf8.Sequence.ofLead? b with
      | some q => complete q.missing q s.consume
      | none => (.item Utf8.replacement, s.consume)
  | (.done, s) => (.done, s)
  | (.failed cause, s) => (.failed cause, s)

end ByteSource

end Lexing
