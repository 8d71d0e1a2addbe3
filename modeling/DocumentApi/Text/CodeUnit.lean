/-!
Code units of sixteen bits. A character beyond U+FFFF is written as two of them, a high and a low
surrogate; a surrogate alone names no character and is read as U+FFFD.
-/

set_option autoImplicit false

namespace DocumentApi.Text.CodeUnit

def isHighSurrogate (n : Nat) : Bool := 0xd800 ≤ n && n < 0xdc00

def isLowSurrogate (n : Nat) : Bool := 0xdc00 ≤ n && n < 0xe000

def char (n : Nat) : Char := if n.isValidChar then Char.ofNat n else '\ufffd'

def pair (high low : Nat) : Char :=
  Char.ofNat (0x10000 + (high - 0xd800) * 0x400 + (low - 0xdc00))

def ofChar (c : Char) : List Nat :=
  let n := c.toNat
  if n < 0x10000 then [n] else [0xd800 + (n - 0x10000) / 0x400, 0xdc00 + (n - 0x10000) % 0x400]

def decode : List Nat → List Char
  | [] => []
  | [n] => [char n]
  | n :: m :: rest =>
    if isHighSurrogate n && isLowSurrogate m then pair n m :: decode rest
    else char n :: decode (m :: rest)

theorem toNat_char_of_isValidChar {n : Nat} (h : n.isValidChar) : (char n).toNat = n := by
  rw [char, if_pos h, Char.ofNat, dif_pos h]
  rfl

theorem char_toNat (c : Char) : char c.toNat = c := by
  have h : c.toNat.isValidChar := c.valid
  exact Char.toNat_inj.mp (toNat_char_of_isValidChar h)

theorem toNat_range (c : Char) : c.toNat < 0xd800 ∨ (0xdfff < c.toNat ∧ c.toNat < 0x110000) :=
  c.valid

/-- The units of a character read back as it, whatever follows. -/
theorem decode_ofChar_append (c : Char) (units : List Nat) :
    decode (ofChar c ++ units) = c :: decode units := by
  have hc := toNat_range c
  simp only [ofChar]
  split
  · have hn : isHighSurrogate c.toNat = false := by
      simp only [isHighSurrogate, Bool.and_eq_false_iff, decide_eq_false_iff_not]
      omega
    cases units <;> simp [decode, hn, char_toNat]
  · have hh : isHighSurrogate (0xd800 + (c.toNat - 0x10000) / 0x400) = true := by
      simp only [isHighSurrogate, Bool.and_eq_true, decide_eq_true_eq]
      omega
    have hl : isLowSurrogate (0xdc00 + (c.toNat - 0x10000) % 0x400) = true := by
      simp only [isLowSurrogate, Bool.and_eq_true, decide_eq_true_eq]
      omega
    have hp : pair (0xd800 + (c.toNat - 0x10000) / 0x400) (0xdc00 + (c.toNat - 0x10000) % 0x400) =
        c := by
      rw [pair, show 0x10000 + (0xd800 + (c.toNat - 0x10000) / 0x400 - 0xd800) * 0x400
        + (0xdc00 + (c.toNat - 0x10000) % 0x400 - 0xdc00) = c.toNat by omega]
      exact Char.ofNat_toNat c
    simp [decode, hh, hl, hp]

theorem decode_flatMap_ofChar (cs : List Char) : decode (cs.flatMap ofChar) = cs := by
  induction cs with
  | nil => rfl
  | cons c rest ih => rw [List.flatMap_cons, decode_ofChar_append, ih]

end DocumentApi.Text.CodeUnit
