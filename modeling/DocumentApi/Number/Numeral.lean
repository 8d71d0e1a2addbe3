import DocumentApi.Number.Binary64
import DocumentApi.Text.Blank
import DocumentApi.Text.Digit

/-!
Numbers read from text. Digits may be those of any script and may be grouped by single
underscores; blanks around the number are ignored. An integer has at most 4300 digits.
-/

set_option autoImplicit false

namespace DocumentApi.Numeral

open Text

inductive IntFault where
  | malformed
  | tooLong (digits : Nat)
deriving DecidableEq, Repr

def maxDigits : Nat := 4300

/-- A character of another script as the plain one it stands for; `?` if it stands for none. -/
def plainChar (c : Char) : Char :=
  if c.toNat < 0x80 then c
  else if isBlank c then ' '
  else (digitValue? c).elim '?' Nat.digitChar

def isPlainBlank (c : Char) : Bool := c = ' ' || (0x9 ≤ c.toNat && c.toNat ≤ 0xd)

def isPlainDigit (c : Char) : Bool := 0x30 ≤ c.toNat && c.toNat ≤ 0x39

def plainDigit (c : Char) : Nat := c.toNat - 0x30

def ofDigits (cs : List Char) : Nat :=
  (cs.filter isPlainDigit).foldl (fun n c => 10 * n + plainDigit c) 0

def sign : List Char → Bool × List Char
  | '-' :: rest => (true, rest)
  | '+' :: rest => (false, rest)
  | cs => (false, cs)

/-- Every underscore has a digit on both sides; `afterDigit` tells of the character before. -/
def wellGrouped : Bool → List Char → Bool
  | _, [] => true
  | afterDigit, '_' :: rest =>
    afterDigit && rest.head?.any isPlainDigit && wellGrouped false rest
  | _, c :: rest => wellGrouped (isPlainDigit c) rest

def inDigitRun (c : Char) : Bool := isPlainDigit c || c = '_'

def readPlainInt (cs : List Char) : Except IntFault Int :=
  let (negative, body) := sign (cs.dropWhile isPlainBlank)
  let run := body.takeWhile inDigitRun
  let rest := body.dropWhile inDigitRun
  let count := (run.filter isPlainDigit).length
  if run.isEmpty || !wellGrouped false run then .error .malformed
  else if maxDigits < count then .error (.tooLong count)
  else if rest.all isPlainBlank then .ok (Binary64.signed negative (ofDigits run))
  else .error .malformed

def readInt (cs : List Char) : Except IntFault Int := readPlainInt (cs.map plainChar)

def readExponent? (cs : List Char) : Option Int :=
  let (negative, digits) := sign cs
  if digits.isEmpty || !digits.all isPlainDigit then none
  else some (Binary64.signed negative (ofDigits digits))

def readFraction? (negative : Bool) (cs : List Char) : Option Binary64 :=
  let whole := cs.takeWhile isPlainDigit
  let (fraction, rest) :=
    match cs.dropWhile isPlainDigit with
    | '.' :: rest => (rest.takeWhile isPlainDigit, rest.dropWhile isPlainDigit)
    | rest => ([], rest)
  let digits := whole ++ fraction
  let value (exponent : Int) :=
    Binary64.ofDecimal negative (ofDigits digits) digits.length (exponent - fraction.length)
  if digits.isEmpty then none
  else
    match rest with
    | [] => some (value 0)
    | c :: rest => if c = 'e' ∨ c = 'E' then (readExponent? rest).map value else none

def readPlainFloat? (cs : List Char) : Option Binary64 :=
  let (negative, body) := sign cs
  let word := String.ofList (body.map Char.toLower)
  if word = "inf" ∨ word = "infinity" then some (.infinite negative)
  else if word = "nan" then some .nan
  else readFraction? negative body

def trimPlain (cs : List Char) : List Char :=
  ((cs.dropWhile isPlainBlank).reverse.dropWhile isPlainBlank).reverse

/-- A decimal number with an optional fraction and exponent, or the name of a special one. -/
def readFloat? (cs : List Char) : Option Binary64 :=
  let body := trimPlain (cs.map plainChar)
  if wellGrouped false body then readPlainFloat? (body.filter (· ≠ '_')) else none

def IntFault.message (source : String) : IntFault → String
  | malformed => "invalid literal for int() with base 10: " ++ source
  | tooLong digits =>
    "Exceeds the limit (" ++ toString maxDigits ++ " digits) for integer string conversion: "
      ++ "value has " ++ toString digits
      ++ " digits; use sys.set_int_max_str_digits() to increase the limit"

example : (readInt " +1_000\u00a0".toList).toOption = some 1000 := by decide +kernel
example : (readInt "1__0".toList).toOption = none := by decide +kernel
example : readFloat? "-1_0.5e-1".toList = some (Binary64.ofQuotient true 105 100) := by
  decide +kernel

end DocumentApi.Numeral
