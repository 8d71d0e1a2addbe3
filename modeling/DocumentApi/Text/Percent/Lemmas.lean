import DocumentApi.Text.Percent
import DocumentApi.Text.Utf8.Lemmas

/-!
Percent escapes are read back as what they were written for. Main statements:
`decodeForm_encodeForm` and `decode_encodeSegment`.
-/

set_option autoImplicit false

namespace DocumentApi.Text.Percent

theorem hexValue?_upperHexDigit (n : Nat) : hexValue? (upperHexDigit n) = some (n % 16) := by
  have h : ∀ k < 16, hexValue? (upperHexDigit k) = some k := by decide
  have hmod : upperHexDigit n = upperHexDigit (n % 16) := by simp [upperHexDigit]
  rw [hmod]
  exact h (n % 16) (Nat.mod_lt n (by decide))

theorem octets_escape_append (octet : UInt8) (cs : List Char) :
    octets (escape octet ++ cs) = octet :: octets cs := by
  have h : 16 * (octet.toNat / 16 % 16) + octet.toNat % 16 = octet.toNat := by
    have := octet.toNat_lt
    omega
  simp [escape, octets, hexValue?_upperHexDigit, h]

theorem octets_cons_of_ne {c : Char} (h : c ≠ '%') (cs : List Char) :
    octets (c :: cs) = Utf8.encodeChar c ++ octets cs := by
  rw [octets]
  simp [h]

theorem toNat_char_of_octet (octet : UInt8) : (Char.ofNat octet.toNat).toNat = octet.toNat := by
  have h : octet.toNat.isValidChar := Or.inl (by have := octet.toNat_lt; omega)
  rw [Char.ofNat, dif_pos h]
  rfl

theorem encodeChar_of_octet {octet : UInt8} (h : octet.toNat < 0x80) :
    Utf8.encodeChar (Char.ofNat octet.toNat) = [octet] := by
  simp [Utf8.encodeChar, toNat_char_of_octet, h]

/-- Octets left bare are read back as long as they are ASCII and none of them is the escape mark. -/
theorem octets_encodeWith_append {bare : List Char} (hmark : '%' ∉ bare)
    (hascii : ∀ c ∈ bare, c.toNat < 0x80) (octet : UInt8) (cs : List Char) :
    octets (encodeWith bare octet ++ cs) = octet :: octets cs := by
  simp only [encodeWith]
  split
  · rename_i h
    have hlt : octet.toNat < 0x80 := by
      rcases h with h | h
      · simp only [isAlphanumeric, Bool.or_eq_true, Bool.and_eq_true, decide_eq_true_eq] at h
        omega
      · simpa [toNat_char_of_octet] using hascii _ h
    have hne : Char.ofNat octet.toNat ≠ '%' := by
      intro he
      rcases h with h | h
      · have : octet.toNat = '%'.toNat := by rw [← toNat_char_of_octet, he]
        simp [isAlphanumeric, this] at h
      · exact hmark (he ▸ h)
    rw [List.singleton_append, octets_cons_of_ne hne, encodeChar_of_octet hlt]
    rfl
  · exact octets_escape_append octet cs

theorem octets_flatMap_encodeWith {bare : List Char} (hmark : '%' ∉ bare)
    (hascii : ∀ c ∈ bare, c.toNat < 0x80) (given : List UInt8) :
    octets (given.flatMap (encodeWith bare)) = given := by
  induction given with
  | nil => rfl
  | cons octet rest ih => rw [List.flatMap_cons, octets_encodeWith_append hmark hascii, ih]

theorem octets_encodeSegment (cs : List Char) : octets (encodeSegment cs) = Utf8.encode cs :=
  octets_flatMap_encodeWith (by simp) (by simp) (Utf8.encode cs)

theorem decode_encodeSegment (cs : List Char) : decode (encodeSegment cs) = cs := by
  rw [decode, octets_encodeSegment, Utf8.decode_encode]

theorem map_unplus_escape (octet : UInt8) : (escape octet).map unplus = escape octet := by
  have h : ∀ k < 16, unplus (upperHexDigit k) = upperHexDigit k := by decide
  have hmod (n : Nat) : upperHexDigit n = upperHexDigit (n % 16) := by simp [upperHexDigit]
  have hdigit (n : Nat) : unplus (upperHexDigit n) = upperHexDigit n := by
    rw [hmod]
    exact h _ (Nat.mod_lt n (by decide))
  simp only [escape, List.map_cons, List.map_nil, hdigit]
  rfl

theorem map_unplus_encodeWith {bare : List Char} (hplus : '+' ∉ bare) (octet : UInt8) :
    (encodeWith bare octet).map unplus = encodeWith bare octet := by
  simp only [encodeWith]
  split
  · rename_i h
    have hne : Char.ofNat octet.toNat ≠ '+' := by
      intro he
      rcases h with h | h
      · have : octet.toNat = '+'.toNat := by rw [← toNat_char_of_octet, he]
        simp [isAlphanumeric, this] at h
      · exact hplus (he ▸ h)
    simp [unplus, hne]
  · exact map_unplus_escape octet

theorem octets_map_unplus_encodeForm (given : List UInt8) :
    octets ((given.flatMap encodeFormOctet).map unplus) = given := by
  induction given with
  | nil => rfl
  | cons octet rest ih =>
    rw [List.flatMap_cons, List.map_append, encodeFormOctet]
    split
    · rename_i h
      rw [show ['+'].map unplus = [' '] from rfl, List.singleton_append,
        octets_cons_of_ne (by decide), ih, h]
      rfl
    · rw [map_unplus_encodeWith (by simp), octets_encodeWith_append (by simp) (by simp), ih]

theorem decodeForm_encodeForm (cs : List Char) : decodeForm (encodeForm cs) = cs := by
  rw [decodeForm, decode, encodeForm, octets_map_unplus_encodeForm, Utf8.decode_encode]

end DocumentApi.Text.Percent
