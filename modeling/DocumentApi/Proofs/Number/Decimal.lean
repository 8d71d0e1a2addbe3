import DocumentApi.Number.Numeral
import Mathlib.Algebra.Group.Nat.Defs
import Mathlib.Data.List.TakeWhile

/-!
Integers in base ten. A number written out is read back as itself as long as its digits can be read
at all, and a number that is read has no more digits than that. Main statements:
`readInt_toString` and `readInt_lt`.
-/

set_option autoImplicit false

namespace DocumentApi.Numeral

theorem ofDigits_eq (cs : List Char) (h : ∀ c ∈ cs, isPlainDigit c = true) :
    ofDigits cs = Nat.ofDigitChars 10 cs 0 := by
  rw [ofDigits, List.filter_eq_self.mpr h]
  rfl

theorem isPlainDigit_of_mem_toDigits {n : Nat} {c : Char} (h : c ∈ Nat.toDigits 10 n) :
    isPlainDigit c = true := by
  have hd := Nat.isDigit_of_mem_toDigits (by decide) (by decide) h
  simpa [isPlainDigit, Char.isDigit, UInt32.le_iff_toNat_le] using hd

/-- The sign that a number is written with. -/
def minus (negative : Bool) : List Char := if negative then ['-'] else []

section Plain
variable {cs : List Char} (h : ∀ c ∈ cs, isPlainDigit c = true)
include h

theorem map_plainChar_of_digits : cs.map plainChar = cs := by
  refine (List.map_congr_left fun c hc => ?_).trans (List.map_id cs)
  have hlt : c.toNat < 0x80 := by
    have := h c hc
    simp only [isPlainDigit, Bool.and_eq_true, decide_eq_true_eq] at this
    omega
  simp [plainChar, hlt]

theorem wellGrouped_of_digits (afterDigit : Bool) : wellGrouped afterDigit cs = true := by
  induction cs generalizing afterDigit with
  | nil => rfl
  | cons c rest ih =>
    have hc : c ≠ '_' := by
      rintro rfl
      exact absurd (h '_' List.mem_cons_self) (by decide)
    rw [wellGrouped]
    · exact ih (fun d hd => h d (List.mem_cons_of_mem c hd)) _
    · exact fun he => hc he

theorem sign_of_digits : sign cs = (false, cs) := by
  unfold sign
  split
  · exact absurd (h '-' List.mem_cons_self) (by decide)
  · exact absurd (h '+' List.mem_cons_self) (by decide)
  · rfl

/-- Plain digits are read as the number that they write, unless they are too many. -/
theorem readPlainInt_of_digits (hne : cs ≠ []) (negative : Bool) :
    readPlainInt (minus negative ++ cs) =
      if maxDigits < cs.length then .error (.tooLong cs.length)
      else .ok (Binary64.signed negative (ofDigits cs)) := by
  have hblank : cs.dropWhile isPlainBlank = cs := by
    cases cs with
    | nil => rfl
    | cons c rest =>
      have hc : isPlainBlank c = false := by
        have hd := h c List.mem_cons_self
        have hspace : c ≠ ' ' := by
          rintro rfl
          exact absurd hd (by decide)
        simp only [isPlainDigit, isPlainBlank, Bool.and_eq_true, decide_eq_true_eq,
          Bool.or_eq_false_iff, Bool.and_eq_false_iff, decide_eq_false_iff_not] at hd ⊢
        exact ⟨hspace, by omega⟩
      exact List.dropWhile_cons_of_neg (by simp [hc])
  have hsign : sign ((minus negative ++ cs).dropWhile isPlainBlank) = (negative, cs) := by
    cases negative with
    | false => exact (congrArg sign hblank).trans (sign_of_digits h)
    | true => rfl
  have hdigits : ∀ c ∈ cs, inDigitRun c = true := fun c hc => by simp [inDigitRun, h c hc]
  have hrun : cs.takeWhile inDigitRun = cs := List.takeWhile_eq_self_iff.mpr hdigits
  have hrest : cs.dropWhile inDigitRun = [] := List.dropWhile_eq_nil_iff.mpr hdigits
  rw [readPlainInt, hsign]
  simp only [hrun, hrest, List.filter_eq_self.mpr h, wellGrouped_of_digits h]
  rw [if_neg (by simpa using hne)]
  rfl

theorem readInt_of_digits (hne : cs ≠ []) :
    readInt cs =
      if maxDigits < cs.length then .error (.tooLong cs.length) else .ok (ofDigits cs : Int) := by
  rw [readInt, map_plainChar_of_digits h]
  exact readPlainInt_of_digits h hne false

end Plain

theorem readInt_toDigits (n : Nat) :
    readInt (toString n).toList =
      if maxDigits < (Nat.toDigits 10 n).length then .error (.tooLong (Nat.toDigits 10 n).length)
      else .ok (n : Int) := by
  have hdigits : ∀ c ∈ Nat.toDigits 10 n, isPlainDigit c = true := fun c =>
    isPlainDigit_of_mem_toDigits
  rw [Nat.toString_eq_repr, Nat.toList_repr, readInt_of_digits hdigits Nat.toDigits_ne_nil,
    ofDigits_eq _ hdigits, Nat.ofDigitChars_ten_toDigits]

/-- A number with few enough digits is read back as itself. -/
theorem readInt_toString {n : Nat} (h : n < 10 ^ maxDigits) :
    readInt (toString n).toList = .ok (n : Int) := by
  have hlen := (Nat.length_toDigits_le_iff (by decide) (by decide)).mpr h
  rw [readInt_toDigits, if_neg (by omega)]

theorem readInt_toString_of_le {n : Nat} (h : 10 ^ maxDigits ≤ n) :
    (readInt (toString n).toList).toOption = none := by
  have hlen := mt (Nat.length_toDigits_le_iff (by decide) (by decide)).mp (Nat.not_lt.mpr h)
  rw [readInt_toDigits, if_pos (by omega)]
  rfl

theorem foldl_digits_lt {cs : List Char} (h : ∀ c ∈ cs, isPlainDigit c = true) (n : Nat) :
    cs.foldl (fun n c => 10 * n + plainDigit c) n < (n + 1) * 10 ^ cs.length := by
  induction cs generalizing n with
  | nil => simp
  | cons c rest ih =>
    have hc : plainDigit c ≤ 9 := by
      have := h c List.mem_cons_self
      simp only [isPlainDigit, Bool.and_eq_true, decide_eq_true_eq] at this
      simp only [plainDigit]
      omega
    calc rest.foldl (fun n c => 10 * n + plainDigit c) (10 * n + plainDigit c)
        < (10 * n + plainDigit c + 1) * 10 ^ rest.length :=
          ih (fun d hd => h d (List.mem_cons_of_mem c hd)) _
      _ ≤ ((n + 1) * 10) * 10 ^ rest.length := Nat.mul_le_mul_right _ (by omega)
      _ = (n + 1) * 10 ^ (c :: rest).length := by
        rw [List.length_cons, Nat.pow_succ, Nat.mul_assoc, Nat.mul_comm 10]

theorem ofDigits_lt (cs : List Char) : ofDigits cs < 10 ^ (cs.filter isPlainDigit).length := by
  have hfilter : ∀ c ∈ cs.filter isPlainDigit, isPlainDigit c = true := fun _ hc =>
    (List.mem_filter.mp hc).2
  simpa [ofDigits] using foldl_digits_lt hfilter 0

/-- What is read has no more digits than can be read. -/
theorem readInt_lt {cs : List Char} {i : Int} (h : readInt cs = .ok i) :
    i < ((10 ^ maxDigits : Nat) : Int) := by
  rw [readInt, readPlainInt] at h
  generalize sign ((cs.map plainChar).dropWhile isPlainBlank) = signed at h
  obtain ⟨negative, body⟩ := signed
  dsimp only at h
  split at h
  · cases h
  · split at h
    · cases h
    · rename_i hlen
      split at h
      · cases h
        have hlt := ofDigits_lt (body.takeWhile inDigitRun)
        have hpow : 10 ^ ((body.takeWhile inDigitRun).filter isPlainDigit).length ≤
            10 ^ maxDigits := Nat.pow_le_pow_right (by decide) (by omega)
        have hnat : ((ofDigits (body.takeWhile inDigitRun) : Nat) : Int) < (10 ^ maxDigits : Nat) :=
          Int.ofNat_lt.mpr (Nat.lt_of_lt_of_le hlt hpow)
        cases negative with
        | false => exact hnat
        | true =>
          simp only [Binary64.signed, if_true]
          omega
      · cases h

end DocumentApi.Numeral
