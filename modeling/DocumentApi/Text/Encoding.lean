import DocumentApi.Text.CodeUnit
import DocumentApi.Text.Pieces
import DocumentApi.Text.Utf8

/-!
Octets in one of the encodings of Unicode, which is told by a byte order mark or by where the first
octets are zero, as they are in a text that starts with two ASCII characters. A lone surrogate is
read as U+FFFD in all of them.
-/

set_option autoImplicit false

namespace DocumentApi.Text

inductive ByteOrder where
  | big | little
deriving DecidableEq, Repr

inductive Encoding where
  | utf8
  | utf16 (order : ByteOrder)
  | utf32 (order : ByteOrder)
deriving DecidableEq, Repr

def ofOctets (octets : List UInt8) : Nat := octets.foldl (fun n octet => 256 * n + octet.toNat) 0

def ByteOrder.number (order : ByteOrder) (octets : List UInt8) : Nat :=
  match order with
  | .big => ofOctets octets
  | .little => ofOctets octets.reverse

namespace Encoding

/-- Each mark, the longer of two that start alike first. -/
def marks : List (List UInt8 × Encoding) :=
  [([0x00, 0x00, 0xfe, 0xff], utf32 .big), ([0xff, 0xfe, 0x00, 0x00], utf32 .little),
    ([0xfe, 0xff], utf16 .big), ([0xff, 0xfe], utf16 .little), ([0xef, 0xbb, 0xbf], utf8)]

/-- The encoding for which a zero stands where it does, if the octets are enough to tell. -/
def ofZeros : List UInt8 → Encoding
  | a :: b :: c :: d :: _ =>
    if a = 0 then (if b = 0 then utf32 .big else utf16 .big)
    else if b = 0 then (if c = 0 ∧ d = 0 then utf32 .little else utf16 .little)
    else utf8
  | [a, b] => if a = 0 then utf16 .big else if b = 0 then utf16 .little else utf8
  | _ => utf8

/-- The encoding of the octets, and the octets after the mark. -/
def detect (octets : List UInt8) : Encoding × List UInt8 :=
  match marks.findSome? fun (mark, e) => (dropStart? mark octets).map (e, ·) with
  | some found => found
  | none => (ofZeros octets, octets)

def units16? (order : ByteOrder) : List UInt8 → Option (List Nat)
  | [] => some []
  | a :: b :: rest => (units16? order rest).map (order.number [a, b] :: ·)
  | _ => none

def decode32? (order : ByteOrder) : List UInt8 → Option (List Char)
  | [] => some []
  | a :: b :: c :: d :: rest =>
    let n := order.number [a, b, c, d]
    if n < 0x110000 then (decode32? order rest).map (CodeUnit.char n :: ·) else none
  | _ => none

/-- Writes U+FFFD in place of every surrogate. -/
def withoutSurrogates : List UInt8 → List UInt8
  | a :: b :: c :: rest =>
    if a = 0xed ∧ 0xa0 ≤ b ∧ b ≤ 0xbf ∧ 0x80 ≤ c ∧ c ≤ 0xbf then
      0xef :: 0xbf :: 0xbd :: withoutSurrogates rest
    else a :: withoutSurrogates (b :: c :: rest)
  | octets => octets

/-- No bad part is accepted other than a lone surrogate. -/
def decode? : Encoding → List UInt8 → Option (List Char)
  | utf8, octets => Utf8.decode? (withoutSurrogates octets)
  | utf16 order, octets => (units16? order octets).map CodeUnit.decode
  | utf32 order, octets => decode32? order octets

def textOf? (octets : List UInt8) : Option (List Char) :=
  let (encoding, rest) := detect octets
  encoding.decode? rest

example : textOf? [0xff, 0xfe, 0x3d, 0xd8, 0x00, 0xde] = some ['😀'] := by decide +kernel
example : textOf? [0x00, 0x7b, 0x00, 0x7d] = some ['\x7b', '\x7d'] := by decide +kernel
example : textOf? [0x22, 0xed, 0xa0, 0x80, 0x22] = some ['"', '\ufffd', '"'] := by decide +kernel
example : textOf? [0x22, 0xc3] = none := by decide +kernel

end Encoding

end DocumentApi.Text
