/-!
Text as octets in UTF-8. The reader takes any octets: what starts no character, and what was cut
short, is reported once for each longest part that could still have become one.
-/

set_option autoImplicit false

namespace DocumentApi.Text.Utf8

def encodeChar (c : Char) : List UInt8 :=
  let n := c.toNat
  if n < 0x80 then [UInt8.ofNat n]
  else if n < 0x800 then [UInt8.ofNat (0xc0 + n / 64), UInt8.ofNat (0x80 + n % 64)]
  else if n < 0x10000 then
    [UInt8.ofNat (0xe0 + n / 4096), UInt8.ofNat (0x80 + n / 64 % 64), UInt8.ofNat (0x80 + n % 64)]
  else
    [UInt8.ofNat (0xf0 + n / 262144), UInt8.ofNat (0x80 + n / 4096 % 64),
      UInt8.ofNat (0x80 + n / 64 % 64), UInt8.ofNat (0x80 + n % 64)]

def encode (cs : List Char) : List UInt8 := cs.flatMap encodeChar

/-- A character under way: its bits so far, the octets still due, and the bounds of the next. -/
structure Pending where
  bits : Nat
  due : Nat
  low : Nat
  high : Nat
deriving DecidableEq, Repr

/-- The bounds of the second octet keep out long forms, surrogates and what exceeds U+10FFFF. -/
def lead? (n : Nat) : Option Pending :=
  if n < 0xc2 then none
  else if n < 0xe0 then some ⟨n - 0xc0, 1, 0x80, 0xbf⟩
  else if n < 0xf0 then
    some ⟨n - 0xe0, 2, if n = 0xe0 then 0xa0 else 0x80, if n = 0xed then 0x9f else 0xbf⟩
  else if n < 0xf5 then
    some ⟨n - 0xf0, 3, if n = 0xf0 then 0x90 else 0x80, if n = 0xf4 then 0x8f else 0xbf⟩
  else none

/-- An octet where a character may start: what it gives, and what is then under way. -/
def start (n : Nat) : List (Option Char) × Option Pending :=
  if n < 0x80 then ([some (Char.ofNat n)], none)
  else
    match lead? n with
    | some p => ([], some p)
    | none => ([none], none)

def step : Option Pending → Nat → List (Option Char) × Option Pending
  | none, n => start n
  | some p, n =>
    if p.low ≤ n ∧ n ≤ p.high then
      let bits := p.bits * 64 + n % 64
      if p.due ≤ 1 then ([some (Char.ofNat bits)], none)
      else ([], some ⟨bits, p.due - 1, 0x80, 0xbf⟩)
    else
      let (given, pending) := start n
      (none :: given, pending)

def unitsFrom : Option Pending → List UInt8 → List (Option Char)
  | none, [] => []
  | some _, [] => [none]
  | pending, octet :: rest =>
    let (given, next) := step pending octet.toNat
    given ++ unitsFrom next rest

def units (octets : List UInt8) : List (Option Char) := unitsFrom none octets

/-- Each bad part is read as U+FFFD. -/
def decode (octets : List UInt8) : List Char := (units octets).map (·.getD '\ufffd')

def decode? (octets : List UInt8) : Option (List Char) := (units octets).mapM id

example : decode (encode "aé€😀".toList) = "aé€😀".toList := by decide +kernel
example : units [0xf0, 0x9f, 0x41, 0xe0, 0x80] = [none, some 'A', none, none] := by decide +kernel

end DocumentApi.Text.Utf8
