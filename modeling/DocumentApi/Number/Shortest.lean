import DocumentApi.Number.Binary64

/-!
The fewest decimal digits that read back as the same number, and their layout: positional from
`10 ^ (-4)` up to `10 ^ 16`, with an exponent of at least two digits elsewhere.
-/

set_option autoImplicit false

namespace DocumentApi.Binary64

/-- The numbers that round to a given one lie between two ends over a common denominator. -/
structure Neighbourhood where
  low : Nat
  value : Nat
  high : Nat
  den : Nat
  /-- Whether the ends themselves round to it. -/
  closed : Bool
deriving DecidableEq, Repr

/-- Below a power of two the next number is twice as near as above it. -/
def neighbourhood (m : Nat) (e : Int) : Neighbourhood :=
  let unit := power 2 (e - 2)
  let below := if m = power 2 52 ∧ -1074 < e then 1 else 2
  ⟨(4 * m - below) * unit, 4 * m * unit, (4 * m + 2) * unit, power 2 (2 - e), m % 2 = 0⟩

def Neighbourhood.contains (h : Neighbourhood) (num den : Nat) : Bool :=
  let low := h.low * den
  let high := h.high * den
  let x := num * h.den
  (low < x && x < high) || (h.closed && (low = x || x = high))

/-- The least `p` with `value < 10 ^ p`, near the given estimate. -/
def decimalPoint (m : Nat) (e : Int) : Int :=
  let p := ((m.log2 : Int) + e) * 30103 / 100000 + 1
  if m * power 2 e * power 10 (-p) < power 10 p * power 2 (-e) then p else p + 1

/-- Of the two multiples of `10 ^ (-places)` around the value, the nearest that reads back. -/
def digitsAt? (h : Neighbourhood) (places : Int) : Option Nat :=
  let up := power 10 places
  let down := power 10 (-places)
  let k := h.value * up / (h.den * down)
  let below := h.contains (k * down) up
  let above := h.contains ((k + 1) * down) up
  let gap := 2 * h.value * up
  let middle := (2 * k + 1) * down * h.den
  if below && above then
    some (if gap < middle ∨ (gap = middle ∧ k % 2 = 0) then k else k + 1)
  else if below then some k
  else if above then some (k + 1)
  else none

def shortest (m : Nat) (e : Int) : Nat × Int :=
  let h := neighbourhood m e
  let p := decimalPoint m e
  let found := (List.range 17).findSome? fun n : Nat =>
    (digitsAt? h (n + 1 - p)).map fun k => (k, p - (n + 1))
  found.getD (0, 0)

def dropZeros (cs : List Char) : List Char := (cs.reverse.dropWhile (· = '0')).reverse

def exponentText (x : Int) : List Char :=
  let digits := Nat.toDigits 10 x.natAbs
  (if x < 0 then '-' else '+') :: (if digits.length < 2 then '0' :: digits else digits)

/-- Digits with a point after the first `point` of them, or an exponent where that is far off. -/
def layout (digits : List Char) (point : Int) : List Char :=
  if -3 ≤ point ∧ point ≤ 16 then
    if point ≤ 0 then '0' :: '.' :: (List.replicate (-point).toNat '0' ++ digits)
    else
      let n := point.toNat
      let fraction := digits.drop n
      digits.take n ++ List.replicate (n - digits.length) '0' ++
        '.' :: (if fraction.isEmpty then ['0'] else fraction)
  else
    let fraction := digits.drop 1
    digits.take 1 ++ (if fraction.isEmpty then [] else '.' :: fraction) ++
      'e' :: exponentText (point - 1)

def finiteText (m : Nat) (e : Int) : List Char :=
  if m = 0 then ['0', '.', '0']
  else
    let (k, exponent) := shortest m e
    let digits := Nat.toDigits 10 k
    layout (dropZeros digits) (digits.length + exponent)

/-- The shortest text that reads back as the number. -/
def text : Binary64 → String
  | nan => "nan"
  | infinite false => "inf"
  | infinite true => "-inf"
  | finite negative m e => String.ofList ((if negative then ['-'] else []) ++ finiteText m e)

example : (ofQuotient false 3 10).text = "0.3" := by decide +kernel
example : (finite true 1 (-1074)).text = "-5e-324" := by decide +kernel
example : (ofQuotient false (power 10 16) 1).text = "1e+16" := by decide +kernel

end DocumentApi.Binary64
