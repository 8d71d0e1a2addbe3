/-!
Numbers of binary64 form: a sign, a significand below `2 ^ 53` and an exponent of two, with the
infinities and one not-a-number. Quotients are rounded to the nearest, ties to the even one.
-/

set_option autoImplicit false

namespace DocumentApi

/-- A finite number is `± significand * 2 ^ exponent`. -/
inductive Binary64 where
  | nan
  | infinite (negative : Bool)
  | finite (negative : Bool) (significand : Nat) (exponent : Int)
deriving DecidableEq, Repr, Inhabited

/-- A power, which is one for a negative exponent. -/
def power (base : Nat) (exponent : Int) : Nat := Nat.pow base exponent.toNat

/-- The integer nearest to `num / den`, the even one if two are. -/
def roundDiv (num den : Nat) : Nat :=
  let quotient := num / den
  let twice := 2 * (num % den)
  if twice < den then quotient
  else if den < twice then quotient + 1
  else quotient + quotient % 2

theorem roundDiv_of_dvd {num den : Nat} (hd : 0 < den) (h : den ∣ num) :
    roundDiv num den = num / den := by
  simp [roundDiv, Nat.mod_eq_zero_of_dvd h, hd]

theorem le_roundDiv (num den : Nat) : num / den ≤ roundDiv num den := by
  simp only [roundDiv]
  split
  · exact Nat.le_refl _
  · split <;> omega

theorem roundDiv_le (num den : Nat) : roundDiv num den ≤ num / den + 1 := by
  simp only [roundDiv]
  split
  · omega
  · split <;> omega

namespace Binary64

/-- The largest `k` with `2 ^ k ≤ num / den`, both positive. -/
def binade (num den : Nat) : Int :=
  let k : Int := num.log2 - den.log2
  if den * power 2 k ≤ num * power 2 (-k) then k else k - 1

/-- The exponent of the last place that a number of this size has. -/
def placeOf (num den : Nat) : Int := max (binade num den - 52) (-1074)

def ofParts (negative : Bool) (significand : Nat) (exponent : Int) : Binary64 :=
  if exponent ≤ 971 then finite negative significand exponent else infinite negative

def zero (negative : Bool) : Binary64 := finite negative 0 (-1074)

/-- The number nearest to `± num / den`, for a positive `den`. -/
def ofQuotient (negative : Bool) (num den : Nat) : Binary64 :=
  if num = 0 then zero negative
  else
    let e := placeOf num den
    let m := roundDiv (num * power 2 (-e)) (den * power 2 e)
    if m < power 2 53 then ofParts negative m e else ofParts negative (power 2 52) (e + 1)

/-- The number nearest to `± coefficient * 10 ^ exponent`; `digits` bounds the coefficient. -/
def ofDecimal (negative : Bool) (coefficient digits : Nat) (exponent : Int) : Binary64 :=
  if coefficient = 0 ∨ digits + exponent < -330 then zero negative
  else if 330 + digits < exponent then infinite negative
  else ofQuotient negative (coefficient * power 10 exponent) (power 10 (-exponent))

def isFinite : Binary64 → Bool
  | finite .. => true
  | _ => false

def isZero : Binary64 → Bool
  | finite _ 0 _ => true
  | _ => false

def signed (negative : Bool) (n : Nat) : Int := if negative then -n else n

def truncate? : Binary64 → Option Int
  | finite negative m e => some (signed negative (m * power 2 e / power 2 (-e)))
  | _ => none

/-- The least integer that a finite number does not exceed. -/
def ceil? : Binary64 → Option Int
  | finite negative m e =>
    let num := m * power 2 e
    let den := power 2 (-e)
    some (if negative then -(num / den : Nat) else ((num + den - 1) / den : Nat))
  | _ => none

/-- The value in units of `2 ^ (-1074)`, which orders the numbers; infinities are at the ends. -/
def rank : Binary64 → Int
  | nan => 0
  | infinite negative => signed negative (power 2 2100)
  | finite negative m e => signed negative (m * power 2 (e + 1074))

def isPositive (x : Binary64) : Bool := 0 < x.rank

example : ofQuotient false 1 3 = finite false 6004799503160661 (-54) := by decide +kernel
example : ofQuotient false (power 2 53 + 1) 1 = finite false (power 2 52) 1 := by decide +kernel
example : (ofQuotient true 7 2).ceil? = some (-3) := by decide +kernel

end Binary64

end DocumentApi
