import DocumentApi.Text.Utf8

/-!
Percent escapes: octets written as `%` and two digits in base sixteen. Queries and path segments
differ in the octets that they leave bare; queries write a space as `+`.
-/

set_option autoImplicit false

namespace DocumentApi.Text.Percent

def hexValue? (c : Char) : Option Nat :=
  if '0' ≤ c ∧ c ≤ '9' then some (c.toNat - 0x30)
  else if 'a' ≤ c ∧ c ≤ 'f' then some (c.toNat - 0x57)
  else if 'A' ≤ c ∧ c ≤ 'F' then some (c.toNat - 0x37)
  else none

def isHexDigit (c : Char) : Bool := (hexValue? c).isSome

def upperHexDigit (n : Nat) : Char :=
  Char.ofNat (if n % 16 < 10 then n % 16 + 0x30 else n % 16 + 0x37)

def escape (octet : UInt8) : List Char :=
  ['%', upperHexDigit (octet.toNat / 16), upperHexDigit octet.toNat]

def isAlphanumeric (n : Nat) : Bool :=
  (0x30 ≤ n && n ≤ 0x39) || (0x41 ≤ n && n ≤ 0x5a) || (0x61 ≤ n && n ≤ 0x7a)

def encodeWith (bare : List Char) (octet : UInt8) : List Char :=
  let c := Char.ofNat octet.toNat
  if isAlphanumeric octet.toNat ∨ c ∈ bare then [c] else escape octet

/-- One octet of a query name or value. -/
def encodeFormOctet (octet : UInt8) : List Char :=
  if octet = 0x20 then ['+'] else encodeWith ['_', '.', '-', '*'] octet

def encodeForm (cs : List Char) : List Char := (Utf8.encode cs).flatMap encodeFormOctet

/-- Leaves bare the octets that a path segment may hold whatever the scheme. -/
def encodeSegment (cs : List Char) : List Char :=
  (Utf8.encode cs).flatMap (encodeWith ['_', '.', '-', '~'])

/-- Leaves bare the octets that may stand anywhere in an address, among them the mark of escapes
that it has already. -/
def encodeAddress (cs : List Char) : List Char :=
  (Utf8.encode cs).flatMap (encodeWith "_.-~:/%#?=@[]!$&'()*+,;".toList)

/-- The octets that a text stands for; a `%` without two digits after it stands for itself. -/
def octets : List Char → List UInt8
  | [] => []
  | '%' :: a :: b :: rest =>
    match hexValue? a, hexValue? b with
    | some x, some y => UInt8.ofNat (16 * x + y) :: octets rest
    | _, _ => 0x25 :: octets (a :: b :: rest)
  | c :: rest => Utf8.encodeChar c ++ octets rest

def decode (cs : List Char) : List Char := Utf8.decode (octets cs)

def unplus (c : Char) : Char := if c = '+' then ' ' else c

def decodeForm (cs : List Char) : List Char := decode (cs.map unplus)

example : encodeForm "a b~é*".toList = "a+b%7E%C3%A9*".toList := by decide +kernel
example : decodeForm "a+b%7E%C3%A9%zz%F0é".toList = "a b~é%zz\ufffdé".toList := by decide +kernel

end DocumentApi.Text.Percent
