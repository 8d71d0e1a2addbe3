import DocumentApi.ObjectId
import DocumentApi.Text.Lowercase
import Mathlib.Algebra.Group.Nat.Defs
import Mathlib.Data.List.Induction

/-!
Identifiers of twelve octets are read back from their texts, which are those of twenty-four digits
in lower case.
-/

set_option autoImplicit false

namespace DocumentApi.ObjectId

open Text

theorem hexNumber?_hexText (width n : Nat) :
    hexNumber? (Text.hexText width n) = some (n % 16 ^ width) := by
  induction width generalizing n with
  | zero => simp [Text.hexText, hexNumber?, Nat.mod_one]
  | succ width ih =>
    have hstep : 16 * (n / 16 % 16 ^ width) + n % 16 = n % 16 ^ (width + 1) := by
      rw [Nat.pow_succ, Nat.mul_comm, Nat.mul_comm (16 ^ width), Nat.mod_mul, Nat.add_comm]
      omega
    simp only [hexNumber?] at ih
    simp [Text.hexText, hexNumber?, ih, hexValue?_hexDigit, hstep]

theorem ofHex?_text (id : ObjectId) : ofHex? id.text = some id := by
  have hlt : id.bits.toNat % 16 ^ 24 = id.bits.toNat :=
    Nat.mod_eq_of_lt (Nat.lt_of_lt_of_eq id.bits.isLt (by decide))
  have hread : hexNumber? (Text.hexText 24 id.bits.toNat) = some id.bits.toNat := by
    rw [hexNumber?_hexText, hlt]
  simp [ofHex?, text, Text.length_hexText, hread, ofNat]

example : (ofNat 0xabc).text = "000000000000000000000abc" := by decide +kernel
example : ofHex? "00000000000000000000000A" = some (ofNat 10) := by decide +kernel

theorem text_injective {id other : ObjectId} (h : id.text = other.text) : id = other := by
  have hread := ofHex?_text id
  rw [h, ofHex?_text] at hread
  exact (Option.some.inj hread).symm

theorem eq_of_ofNat_eq {m n : Nat} (hm : m < 2 ^ 96) (hn : n < 2 ^ 96) (h : ofNat m = ofNat n) :
    m = n := by
  have hbits : BitVec.ofNat 96 m = BitVec.ofNat 96 n := congrArg bits h
  have hnat := congrArg BitVec.toNat hbits
  rwa [BitVec.toNat_ofNat, BitVec.toNat_ofNat, Nat.mod_eq_of_lt hm, Nat.mod_eq_of_lt hn] at hnat

/-- A digit in either case is written in lower case. -/
theorem digitChar_of_hexValue? {c : Char} {v : Nat} (h : Percent.hexValue? c = some v) :
    c.toNat < 0x80 ∧ v < 16 ∧ Nat.digitChar v = c.toLower := by
  have hsmall : ∀ n < 0x80, ∀ v, Percent.hexValue? (Char.ofNat n) = some v →
      v < 16 ∧ Nat.digitChar v = (Char.ofNat n).toLower := by
    decide
  have hc : c.toNat < 0x80 := by
    unfold Percent.hexValue? at h
    split at h
    · rename_i hdigit
      exact Nat.lt_of_le_of_lt (Char.le_def.mp hdigit.2) (by decide)
    · split at h
      · rename_i hlower
        exact Nat.lt_of_le_of_lt (Char.le_def.mp hlower.2) (by decide)
      · split at h
        · rename_i hupper
          exact Nat.lt_of_le_of_lt (Char.le_def.mp hupper.2) (by decide)
        · cases h
  have hv := hsmall c.toNat hc v (by rwa [Char.ofNat_toNat])
  rw [Char.ofNat_toNat] at hv
  exact ⟨hc, hv⟩

theorem hexText_of_hexNumber? {cs : List Char} {n : Nat} (h : hexNumber? cs = some n) :
    (∀ c ∈ cs, c.toNat < 0x80) ∧ n < 16 ^ cs.length ∧ hexText cs.length n = cs.map Char.toLower := by
  induction cs using List.reverseRecOn generalizing n with
  | nil =>
    cases h
    simp [hexText]
  | append_singleton front c ih =>
    rw [hexNumber?, List.foldlM_append] at h
    obtain ⟨m, hfront, hlast⟩ := Option.bind_eq_some_iff.mp h
    simp only [List.foldlM_cons, List.foldlM_nil] at hlast
    obtain ⟨_, hvalue, hn⟩ := Option.bind_eq_some_iff.mp hlast
    obtain ⟨v, hv, rfl⟩ := Option.map_eq_some_iff.mp hvalue
    obtain rfl := Option.some.inj hn
    obtain ⟨hascii, hlt, htext⟩ := ih hfront
    obtain ⟨hc, hv16, hdigit⟩ := digitChar_of_hexValue? hv
    have hdiv : (16 * m + v) / 16 = m := by omega
    have hmod : (16 * m + v) % 16 = v := by omega
    refine ⟨fun d hd => ?_, ?_, ?_⟩
    · rcases List.mem_append.mp hd with hd | hd
      · exact hascii d hd
      · exact List.mem_singleton.mp hd ▸ hc
    · rw [List.length_append, List.length_singleton, Nat.pow_succ]
      omega
    · rw [List.length_append, List.length_singleton, hexText, hdiv, htext, hexDigit, hmod, hdigit,
        List.map_append, List.map_singleton]

/-- The text of an object identifier is that which it was read from, in lower case. -/
theorem lowered_of_ofHex? {s : String} {id : ObjectId} (h : ofHex? s = some id) :
    lowered s = id.text := by
  unfold ofHex? at h
  split at h
  · rename_i hlength
    obtain ⟨n, hn, rfl⟩ := Option.map_eq_some_iff.mp h
    obtain ⟨hascii, hlt, htext⟩ := hexText_of_hexNumber? hn
    rw [hlength] at hlt htext
    have hbits : (ofNat n).bits.toNat = n := by
      rw [ofNat, BitVec.toNat_ofNat, Nat.mod_eq_of_lt (Nat.lt_of_lt_of_eq hlt (by decide))]
    rw [lowered, lower, lowerFrom_of_ascii hascii, text, hbits, htext]
  · cases h

end DocumentApi.ObjectId
