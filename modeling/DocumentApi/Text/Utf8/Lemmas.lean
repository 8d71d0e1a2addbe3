import DocumentApi.Text.Utf8

/-!
Reading octets that write a text gives the text back. Main statements: `units_encode`, and from it
`decode_encode` and `decode?_encode`.
-/

set_option autoImplicit false

namespace DocumentApi.Text.Utf8

theorem toNat_octet {n : Nat} (h : n < 256) : (UInt8.ofNat n).toNat = n := by
  simp [Nat.mod_eq_of_lt h]

theorem unitsFrom_cons (pending : Option Pending) (octet : UInt8) (rest : List UInt8) :
    unitsFrom pending (octet :: rest) =
      (step pending octet.toNat).1 ++ unitsFrom (step pending octet.toNat).2 rest := by
  cases pending <;> rfl

theorem unitsFrom_lead {n : Nat} {p : Pending} (h : lead? n = some p) (hlow : 0x80 ≤ n)
    (hhigh : n < 256) (rest : List UInt8) :
    unitsFrom none (UInt8.ofNat n :: rest) = unitsFrom (some p) rest := by
  rw [unitsFrom_cons, toNat_octet hhigh]
  simp [step, start, h, Nat.not_lt.mpr hlow]

/-- An octet within the bounds adds six bits, and the last one due completes the character. -/
theorem unitsFrom_next {p : Pending} {n : Nat} (hn : n < 64) (hlow : p.low ≤ 0x80 + n)
    (hhigh : 0x80 + n ≤ p.high) (rest : List UInt8) :
    unitsFrom (some p) (UInt8.ofNat (0x80 + n) :: rest) =
      if p.due ≤ 1 then some (Char.ofNat (p.bits * 64 + n)) :: unitsFrom none rest
      else unitsFrom (some ⟨p.bits * 64 + n, p.due - 1, 0x80, 0xbf⟩) rest := by
  have hbits : (0x80 + n) % 64 = n := by omega
  rw [unitsFrom_cons, toNat_octet (by omega), step, if_pos ⟨hlow, hhigh⟩, hbits]
  split <;> rfl

theorem unitsFrom_encodeChar_append (c : Char) (rest : List UInt8) :
    unitsFrom none (encodeChar c ++ rest) = some c :: unitsFrom none rest := by
  have hc : c.toNat < 0xd800 ∨ (0xdfff < c.toNat ∧ c.toNat < 0x110000) := c.valid
  have hofNat : Char.ofNat c.toNat = c := Char.ofNat_toNat c
  simp only [encodeChar]
  generalize c.toNat = n at hc hofNat
  split
  · rw [List.singleton_append, unitsFrom_cons, toNat_octet (by omega)]
    simp [step, start, *]
  split
  · have hlead : lead? (0xc0 + n / 64) = some ⟨n / 64, 1, 0x80, 0xbf⟩ := by
      rw [lead?, if_neg (by omega), if_pos (by omega), Nat.add_sub_cancel_left]
    simp only [List.cons_append, List.nil_append]
    rw [unitsFrom_lead hlead (by omega) (by omega),
      unitsFrom_next (by omega) (by simp) (by simp; omega)]
    simp only [Nat.le_refl, if_true]
    rw [show n / 64 * 64 + n % 64 = n by omega, hofNat]
  split
  · have hlead : lead? (0xe0 + n / 4096) = some ⟨n / 4096, 2,
        if 0xe0 + n / 4096 = 0xe0 then 0xa0 else 0x80,
        if 0xe0 + n / 4096 = 0xed then 0x9f else 0xbf⟩ := by
      rw [lead?, if_neg (by omega), if_neg (by omega), if_pos (by omega), Nat.add_sub_cancel_left]
    simp only [List.cons_append, List.nil_append]
    rw [unitsFrom_lead hlead (by omega) (by omega),
      unitsFrom_next (by omega) (by simp only; split <;> omega) (by simp only; split <;> omega)]
    simp only [Nat.reduceLeDiff, if_false]
    rw [unitsFrom_next (by omega) (by simp) (by simp; omega)]
    simp only [Nat.reduceSub, Nat.le_refl, if_true]
    rw [show (n / 4096 * 64 + n / 64 % 64) * 64 + n % 64 = n by omega, hofNat]
  · have hlead : lead? (0xf0 + n / 262144) = some ⟨n / 262144, 3,
        if 0xf0 + n / 262144 = 0xf0 then 0x90 else 0x80,
        if 0xf0 + n / 262144 = 0xf4 then 0x8f else 0xbf⟩ := by
      rw [lead?, if_neg (by omega), if_neg (by omega), if_neg (by omega), if_pos (by omega),
        Nat.add_sub_cancel_left]
    simp only [List.cons_append, List.nil_append]
    rw [unitsFrom_lead hlead (by omega) (by omega),
      unitsFrom_next (by omega) (by simp only; split <;> omega) (by simp only; split <;> omega)]
    simp only [Nat.reduceLeDiff, if_false]
    rw [unitsFrom_next (by omega) (by simp) (by simp; omega)]
    simp only [Nat.reduceSub, Nat.reduceLeDiff, if_false]
    rw [unitsFrom_next (by omega) (by simp) (by simp; omega)]
    simp only [Nat.reduceSub, Nat.le_refl, if_true]
    rw [show ((n / 262144 * 64 + n / 4096 % 64) * 64 + n / 64 % 64) * 64 + n % 64 = n by omega,
      hofNat]

theorem units_encode (cs : List Char) : units (encode cs) = cs.map some := by
  induction cs with
  | nil => rfl
  | cons c rest ih =>
    rw [encode, List.flatMap_cons, units, unitsFrom_encodeChar_append, List.map_cons]
    exact congrArg _ ih

theorem decode_encode (cs : List Char) : decode (encode cs) = cs := by
  simp [decode, units_encode, Function.comp_def]

theorem decode?_encode (cs : List Char) : decode? (encode cs) = some cs := by
  rw [decode?, units_encode]
  induction cs with
  | nil => rfl
  | cons c rest ih => simp [List.mapM_cons, ih]

end DocumentApi.Text.Utf8
