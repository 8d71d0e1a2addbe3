import DocumentApi.Page
import Mathlib.Algebra.Order.Floor.Div
import Mathlib.Tactic.Linarith
import Mathlib.Tactic.Ring

/-!
The number of pages is exact where every number up to the count is a binary64 number, although it
goes by way of a rounded quotient. Between two integers the quotient differs from the lower one by
more than half of its last place, so rounding up to an integer gives the upper one. Main statements:
`totalPages_exact` and, for pages that hold everything, `totalPages_le_one`; together they say which
pages are followed by another, `totalPages_spec`.
-/

set_option autoImplicit false

namespace DocumentApi

/-! Rounded quotients. -/

theorem roundDiv_le_of_le_mul {num den b : Nat} (hd : 0 < den) (h : num ≤ b * den) :
    roundDiv num den ≤ b := by
  rcases Nat.lt_or_eq_of_le h with hlt | heq
  · have hq : num / den < b := (Nat.div_lt_iff_lt_mul hd).mpr hlt
    have := roundDiv_le num den
    omega
  · rw [heq, roundDiv_of_dvd hd (Nat.dvd_mul_left den b), Nat.mul_div_cancel b hd]

theorem lt_roundDiv_of_lt {num den b : Nat} (hd : 0 < den) (h : 2 * (b * den) + den < 2 * num) :
    b < roundDiv num den := by
  have hle := le_roundDiv num den
  have hb : b ≤ num / den := (Nat.le_div_iff_mul_le hd).mpr (by omega)
  rcases Nat.lt_or_eq_of_le hb with hlt | heq
  · omega
  · have hmod : den * b + num % den = num := heq ▸ Nat.div_add_mod num den
    have htwice : den < 2 * (num % den) := by linarith [Nat.mul_comm den b]
    simp only [roundDiv, ← heq]
    rw [if_neg (by omega), if_pos htwice]
    exact Nat.lt_succ_self b

namespace Binary64

/-! Powers of two with an exponent of either sign. -/

theorem power_pos (e : Int) : 0 < power 2 e := Nat.pow_pos (by decide)

theorem power_of_nonpos {e : Int} (h : e ≤ 0) : power 2 e = 1 := by
  rw [power, Int.toNat_of_nonpos h, Nat.pow_eq, Nat.pow_zero]

theorem power_natCast (n : Nat) : power 2 n = 2 ^ n := rfl

theorem two_pow_mul_power (x y : Nat) :
    2 ^ x * power 2 ((y : Int) - x) = 2 ^ y * power 2 ((x : Int) - y) := by
  rcases Nat.le_total x y with h | h
  · obtain ⟨d, rfl⟩ := Nat.exists_eq_add_of_le h
    have hdiff : ((x + d : Nat) : Int) - x = (d : Nat) := by omega
    rw [power_of_nonpos (e := (x : Int) - ↑(x + d)) (by omega), hdiff, power_natCast,
      ← Nat.pow_add, Nat.mul_one]
  · obtain ⟨d, rfl⟩ := Nat.exists_eq_add_of_le h
    have hdiff : ((y + d : Nat) : Int) - y = (d : Nat) := by omega
    rw [power_of_nonpos (e := (y : Int) - ↑(y + d)) (by omega), hdiff, power_natCast,
      ← Nat.pow_add, Nat.mul_one]

theorem power_sub_mul_power {c : Nat} {j : Int} (h : j ≤ c) :
    power 2 (c - j) * power 2 j = 2 ^ c * power 2 (-j) := by
  rcases Int.le_total 0 j with hj | hj
  · obtain ⟨n, rfl⟩ := Int.eq_ofNat_of_zero_le hj
    obtain ⟨d, rfl⟩ := Nat.exists_eq_add_of_le (Int.ofNat_le.mp h)
    have hdiff : ((n + d : Nat) : Int) - n = (d : Nat) := by omega
    rw [power_of_nonpos (e := -(n : Int)) (by omega), hdiff, power_natCast, power_natCast,
      ← Nat.pow_add, Nat.mul_one, Nat.add_comm]
  · obtain ⟨n, rfl⟩ := Int.exists_eq_neg_ofNat hj
    have hsum : ((c : Int) - -(n : Int)) = (c + n : Nat) := by omega
    rw [power_of_nonpos hj, hsum, Int.neg_neg, power_natCast, power_natCast, Nat.pow_add,
      Nat.mul_one]

theorem power_neg_eq_double {e : Int} (h : e < 0) : power 2 (-e) = 2 * power 2 (-(e + 1)) := by
  have hnonneg : 0 ≤ -(e + 1) := by omega
  obtain ⟨n, hn⟩ := Int.eq_ofNat_of_zero_le hnonneg
  have hsucc : -e = (n + 1 : Nat) := by omega
  rw [hn, hsucc, power_natCast, power_natCast, Nat.pow_succ, Nat.mul_comm]

theorem binade_spec {num den : Nat} (hn : 0 < num) (hd : 0 < den) :
    den * power 2 (binade num den) ≤ num * power 2 (-binade num den) ∧
    num * power 2 (-(binade num den + 1)) < den * power 2 (binade num den + 1) := by
  have hnlow : 2 ^ num.log2 ≤ num := Nat.log2_self_le (by omega)
  have hnhigh : num < 2 ^ (num.log2 + 1) := Nat.lt_log2_self
  have hdlow : 2 ^ den.log2 ≤ den := Nat.log2_self_le (by omega)
  have hdhigh : den < 2 ^ (den.log2 + 1) := Nat.lt_log2_self
  unfold binade
  generalize num.log2 = a at *
  generalize den.log2 = b at *
  dsimp only
  split
  · rename_i h
    refine ⟨h, ?_⟩
    have hpow := two_pow_mul_power (a + 1) b
    have hdown : (b : Int) - (a + 1 : Nat) = -((a : Int) - b + 1) := by omega
    have hup : ((a + 1 : Nat) : Int) - b = (a : Int) - b + 1 := by omega
    rw [hdown, hup] at hpow
    calc num * power 2 (-((a : Int) - b + 1))
        < 2 ^ (a + 1) * power 2 (-((a : Int) - b + 1)) :=
          Nat.mul_lt_mul_of_pos_right hnhigh (power_pos _)
      _ = 2 ^ b * power 2 ((a : Int) - b + 1) := hpow
      _ ≤ den * power 2 ((a : Int) - b + 1) := Nat.mul_le_mul_right _ hdlow
  · rename_i h
    rw [Int.sub_add_cancel]
    refine ⟨?_, Nat.lt_of_not_le h⟩
    have hpow := two_pow_mul_power (b + 1) a
    have hdown : (a : Int) - (b + 1 : Nat) = (a : Int) - b - 1 := by omega
    have hup : ((b + 1 : Nat) : Int) - a = -((a : Int) - b - 1) := by omega
    rw [hdown, hup] at hpow
    calc den * power 2 ((a : Int) - b - 1)
        ≤ 2 ^ (b + 1) * power 2 ((a : Int) - b - 1) := Nat.mul_le_mul_right _ (Nat.le_of_lt hdhigh)
      _ = 2 ^ a * power 2 (-((a : Int) - b - 1)) := hpow
      _ ≤ num * power 2 (-((a : Int) - b - 1)) := Nat.mul_le_mul_right _ hnlow

/-! Rounding a rounded quotient up. -/

def places (num den : Nat) : Nat := roundDiv (num * power 2 (-placeOf num den)) den

theorem ceilDiv_eq {a b c : Nat} (hlow : c * b < a) (hhigh : a ≤ (c + 1) * b) :
    (a + b - 1) / b = c + 1 := by
  have hsucc : (c + 1) * b = c * b + b := Nat.succ_mul c b
  refine Nat.div_eq_of_lt_le (by omega) ?_
  have : (c + 1 + 1) * b = c * b + b + b := by rw [Nat.succ_mul, hsucc]
  omega

theorem double_ceilDiv (a b : Nat) : (2 * a + 2 * b - 1) / (2 * b) = (a + b - 1) / b := by
  rw [← Nat.div_div_eq_div_mul]
  congr 1
  omega

theorem ceil?_finite (m : Nat) {e : Int} (he : e ≤ 0) :
    (finite false m e).ceil? = some (((m + power 2 (-e) - 1) / power 2 (-e) : Nat) : Int) := by
  simp [ceil?, power_of_nonpos he]

/-- The binary64 number nearest to a quotient, by its places. -/
theorem ofQuotient_eq {num den : Nat} (hn : num ≠ 0) (he : placeOf num den ≤ 0) :
    ofQuotient false num den =
      if places num den < 2 ^ 53 then finite false (places num den) (placeOf num den)
      else finite false (2 ^ 52) (placeOf num den + 1) := by
  have hplaces : roundDiv (num * power 2 (-placeOf num den)) (den * power 2 (placeOf num den)) =
      places num den := by
    rw [power_of_nonpos he, Nat.mul_one, places]
  have hsmall : placeOf num den ≤ 971 := by omega
  have hcarry : placeOf num den + 1 ≤ 971 := by omega
  simp only [ofQuotient, hn, if_false, hplaces, ofParts, hsmall, hcarry, if_true]
  rfl

/-- A quotient that has places after the point is rounded up by its places, also where the rounding
carries into the next binade. -/
theorem ceil?_ofQuotient {num den : Nat} (hn : num ≠ 0) (he : placeOf num den ≤ 0)
    (hm : places num den ≤ 2 ^ 53) :
    (ofQuotient false num den).ceil? = some
      (((places num den + power 2 (-placeOf num den) - 1) / power 2 (-placeOf num den) : Nat)
        : Int) := by
  rw [ofQuotient_eq hn he]
  generalize placeOf num den = e at *
  generalize places num den = m at *
  rcases Nat.lt_or_eq_of_le hm with hlt | rfl
  · rw [if_pos hlt, ceil?_finite m he]
  · rw [if_neg (Nat.lt_irrefl _)]
    rcases Int.lt_or_eq_of_le he with hneg | rfl
    · have hdouble : 2 ^ 53 = 2 * 2 ^ 52 := rfl
      rw [ceil?_finite _ (by omega), power_neg_eq_double hneg, hdouble, double_ceilDiv]
    · rfl

theorem ceil?_ofQuotient_le_one {num den : Nat} (hn : num ≠ 0) (hd : 0 < den) (h : num ≤ den) :
    ∃ pages : Nat, (ofQuotient false num den).ceil? = some (pages : Int) ∧ pages ≤ 1 := by
  have hbinade : binade num den ≤ 0 := by
    have hlow := (binade_spec (Nat.pos_of_ne_zero hn) hd).1
    by_contra hpos
    have hnonneg : 0 ≤ binade num den - 1 := by omega
    obtain ⟨k, hk⟩ := Int.eq_ofNat_of_zero_le hnonneg
    have hsucc : binade num den = (k + 1 : Nat) := by omega
    have htwice : power 2 (binade num den) = 2 * 2 ^ k := by
      rw [hsucc, power_natCast, Nat.pow_succ, Nat.mul_comm]
    rw [htwice, power_of_nonpos (by omega), Nat.mul_one] at hlow
    have := Nat.mul_le_mul_left den (Nat.one_le_two_pow (n := k))
    linarith
  have he : placeOf num den ≤ 0 := by
    unfold placeOf
    omega
  have hplaces : places num den ≤ power 2 (-placeOf num den) :=
    roundDiv_le_of_le_mul hd (by rw [Nat.mul_comm]; exact Nat.mul_le_mul_left _ h)
  rw [ofQuotient_eq hn he]
  generalize placeOf num den = e at *
  generalize places num den = m at *
  by_cases hlt : m < 2 ^ 53
  · rw [if_pos hlt]
    refine ⟨_, ceil?_finite m he, ?_⟩
    have := power_pos (-e)
    exact Nat.lt_succ_iff.mp ((Nat.div_lt_iff_lt_mul this).mpr (by omega))
  · rw [if_neg hlt]
    have hneg : e < 0 := by
      rcases Int.lt_or_eq_of_le he with hneg | rfl
      · exact hneg
      · have : m ≤ 1 := hplaces
        omega
    refine ⟨_, ceil?_finite _ (by omega), ?_⟩
    rw [power_neg_eq_double hneg] at hplaces
    have := power_pos (-(e + 1))
    exact Nat.lt_succ_iff.mp ((Nat.div_lt_iff_lt_mul this).mpr (by omega))

section Exact
variable {num den : Nat}

/-- Of numbers up to `2 ^ 53`, only `2 ^ 53` itself has a quotient without places after the point. -/
theorem binade_bounds (hn : 0 < num) (hd : 0 < den) (hn53 : num ≤ 2 ^ 53) (hd53 : den ≤ 2 ^ 53) :
    -53 ≤ binade num den ∧ (binade num den ≤ 52 ∨ num = 2 ^ 53 ∧ den = 1) := by
  obtain ⟨hlow, hhigh⟩ := binade_spec hn hd
  generalize binade num den = k at *
  constructor
  · by_contra hk
    have hnonneg : 0 ≤ -(k + 1) - 53 := by omega
    obtain ⟨j, hj⟩ := Int.eq_ofNat_of_zero_le hnonneg
    have hsum : -(k + 1) = (53 + j : Nat) := by omega
    rw [power_of_nonpos (e := k + 1) (by omega), hsum, power_natCast, Nat.mul_one, Nat.pow_add]
      at hhigh
    have := Nat.mul_le_mul hn (Nat.mul_le_mul_left (2 ^ 53) (Nat.one_le_two_pow (n := j)))
    omega
  · by_cases hk : k ≤ 52
    · exact Or.inl hk
    · have hnonneg : 0 ≤ k - 53 := by omega
      obtain ⟨j, hj⟩ := Int.eq_ofNat_of_zero_le hnonneg
      have hsum : k = (53 + j : Nat) := by omega
      rw [power_of_nonpos (e := -k) (by omega), hsum, power_natCast, Nat.mul_one, Nat.pow_add]
        at hlow
      have hden := Nat.mul_le_mul_left den
        (Nat.mul_le_mul_left (2 ^ 53) (Nat.one_le_two_pow (n := j)))
      have hlarge : den * 2 ^ 53 ≤ num := by
        rw [Nat.mul_one] at hden
        exact Nat.le_trans hden hlow
      exact Or.inr ⟨by omega, by omega⟩

theorem placeOf_eq (hn : 0 < num) (hd : 0 < den) (hn53 : num ≤ 2 ^ 53) (hd53 : den ≤ 2 ^ 53) :
    placeOf num den = binade num den - 52 := by
  have := (binade_bounds hn hd hn53 hd53).1
  unfold placeOf
  omega

/-- A quotient that is no integer is far from the one below it: its rest, in units of half a last
place, is more than one. -/
theorem den_lt_double_power (hn : 0 < num) (hd : 0 < den) (hn53 : num ≤ 2 ^ 53)
    (hd53 : den ≤ 2 ^ 53) (hk : binade num den ≤ 52) (hdvd : ¬ den ∣ num) :
    den < 2 * power 2 (-placeOf num den) := by
  obtain ⟨hlow, -⟩ := binade_spec hn hd
  rw [placeOf_eq hn hd hn53 hd53]
  generalize binade num den = k at *
  have hpower : power 2 (-(k - 52)) * power 2 k = 2 ^ 52 * power 2 (-k) := by
    have hdiff : -(k - 52) = ((52 : Nat) : Int) - k := by omega
    rw [hdiff]
    exact power_sub_mul_power (by omega)
  have hle : den * power 2 k ≤ 2 * power 2 (-(k - 52)) * power 2 k := by
    calc den * power 2 k ≤ num * power 2 (-k) := hlow
      _ ≤ 2 ^ 53 * power 2 (-k) := Nat.mul_le_mul_right _ hn53
      _ = 2 * (2 ^ 52 * power 2 (-k)) := by ring
      _ = 2 * power 2 (-(k - 52)) * power 2 k := by rw [← hpower]; ring
  rcases Nat.lt_or_eq_of_le (Nat.le_of_mul_le_mul_right hle (power_pos k)) with hlt | heq
  · exact hlt
  · -- Only `2 ^ 53` over a power of two leaves no room, and that is an integer.
    exfalso
    have hnum : 2 ^ 53 ≤ num := by
      refine Nat.le_of_mul_le_mul_right ?_ (power_pos (-k))
      calc 2 ^ 53 * power 2 (-k) = 2 * (2 ^ 52 * power 2 (-k)) := by ring
        _ = den * power 2 k := by rw [← hpower, heq]; ring
        _ ≤ num * power 2 (-k) := hlow
    have hden : den = 2 ^ ((-(k - 52)).toNat + 1) := by
      rw [heq, Nat.pow_succ, Nat.mul_comm]
      rfl
    obtain rfl : num = 2 ^ 53 := Nat.le_antisymm hn53 hnum
    rw [hden] at hd53 hdvd
    exact hdvd (Nat.pow_dvd_pow 2 ((Nat.pow_le_pow_iff_right (by decide)).mp hd53))

theorem places_le (hn : 0 < num) (hd : 0 < den) (hn53 : num ≤ 2 ^ 53) (hd53 : den ≤ 2 ^ 53)
    (hk : binade num den ≤ 52) : places num den ≤ 2 ^ 53 := by
  obtain ⟨-, hhigh⟩ := binade_spec hn hd
  apply roundDiv_le_of_le_mul hd
  rw [placeOf_eq hn hd hn53 hd53]
  generalize binade num den = k at *
  have hpower : power 2 (-(k - 52)) * power 2 (k + 1) = 2 ^ 53 * power 2 (-(k + 1)) := by
    have hdiff : -(k - 52) = ((53 : Nat) : Int) - (k + 1) := by omega
    rw [hdiff]
    exact power_sub_mul_power (by omega)
  refine Nat.le_of_mul_le_mul_right ?_ (power_pos (k + 1))
  calc num * power 2 (-(k - 52)) * power 2 (k + 1) = 2 ^ 53 * (num * power 2 (-(k + 1))) := by
        rw [Nat.mul_assoc, hpower]; ring
    _ ≤ 2 ^ 53 * (den * power 2 (k + 1)) := Nat.mul_le_mul_left _ (Nat.le_of_lt hhigh)
    _ = 2 ^ 53 * den * power 2 (k + 1) := by ring

theorem ceilDiv_places (hn : 0 < num) (hd : 0 < den) (hn53 : num ≤ 2 ^ 53) (hd53 : den ≤ 2 ^ 53)
    (hk : binade num den ≤ 52) :
    (places num den + power 2 (-placeOf num den) - 1) / power 2 (-placeOf num den) =
      (num + den - 1) / den := by
  have hfar := den_lt_double_power hn hd hn53 hd53 hk
  have hpos := power_pos (-placeOf num den)
  unfold places
  generalize power 2 (-placeOf num den) = P at *
  by_cases hdvd : den ∣ num
  · obtain ⟨q, rfl⟩ := hdvd
    obtain ⟨q, rfl⟩ := Nat.exists_eq_succ_of_ne_zero (Nat.pos_of_mul_pos_left hn).ne'
    have hround : roundDiv (den * (q + 1) * P) den = (q + 1) * P := by
      rw [Nat.mul_assoc, roundDiv_of_dvd hd (Nat.dvd_mul_right _ _), Nat.mul_div_cancel_left _ hd]
    have hstep : ∀ b, 0 < b → q * b < (q + 1) * b := fun b hb =>
      Nat.mul_lt_mul_of_pos_right (Nat.lt_succ_self q) hb
    rw [hround, Nat.mul_comm den, ceilDiv_eq (hstep P hpos) (Nat.le_refl _),
      ceilDiv_eq (hstep den hd) (Nat.le_refl _)]
  · have hrest : 0 < num % den := Nat.pos_of_ne_zero fun h => hdvd (Nat.dvd_of_mod_eq_zero h)
    have hmod : num / den * den + num % den = num := Nat.div_add_mod' num den
    have hlt : num % den < den := Nat.mod_lt num hd
    have hfar := hfar hdvd
    generalize num / den = q at *
    generalize num % den = rest at *
    have hscaled : num * P = q * P * den + rest * P := by rw [← hmod]; ring
    have hupper : roundDiv (num * P) den ≤ (q + 1) * P := by
      apply roundDiv_le_of_le_mul hd
      calc num * P ≤ q * P * den + den * P := by
            rw [hscaled]
            exact Nat.add_le_add_left (Nat.mul_le_mul_right P (Nat.le_of_lt hlt)) _
        _ = (q + 1) * P * den := by ring
    have hlower : q * P < roundDiv (num * P) den := by
      apply lt_roundDiv_of_lt hd
      have := Nat.mul_le_mul_right P hrest
      omega
    have hnum : num ≤ (q + 1) * den := by rw [Nat.succ_mul]; omega
    have hless : q * den < num := by omega
    rw [ceilDiv_eq hlower hupper, ceilDiv_eq hless hnum]

end Exact

theorem ceil?_ofQuotient_zero (den : Nat) : (ofQuotient false 0 den).ceil? = some ((0 : Nat) : Int) := by
  have hpos := power_pos (- -1074)
  rw [ofQuotient, if_pos rfl, zero, ceil?_finite 0 (by decide), Nat.div_eq_of_lt (by omega)]

end Binary64

theorem totalPages_eq {count size pages : Nat} (hsize : 1 ≤ size)
    (h : (Binary64.ofQuotient false count size).ceil? = some (pages : Int)) :
    totalPages count size = .ok (pages : Int) := by
  have hsign : ((decide ((count : Int) < 0)) != (decide ((size : Int) < 0))) = false := by
    rw [decide_eq_false (by omega), decide_eq_false (by omega)]
    rfl
  simp only [totalPages, hsign, Int.natAbs_natCast, h]
  rw [if_neg (by omega)]

theorem totalPages_exact {count size : Nat} (hcount : count ≤ 2 ^ 53) (hsize : 1 ≤ size)
    (hsize53 : size ≤ 2 ^ 53) :
    totalPages count size = .ok (((count + size - 1) / size : Nat) : Int) := by
  apply totalPages_eq hsize
  rcases Nat.eq_zero_or_pos count with rfl | hpos
  · rw [Nat.zero_add, Nat.div_eq_of_lt (by omega), Binary64.ceil?_ofQuotient_zero]
  · rcases (Binary64.binade_bounds hpos hsize hcount hsize53).2 with hk | ⟨rfl, rfl⟩
    · have he : Binary64.placeOf count size ≤ 0 := by
        rw [Binary64.placeOf_eq hpos hsize hcount hsize53]
        omega
      rw [Binary64.ceil?_ofQuotient hpos.ne' he (Binary64.places_le hpos hsize hcount hsize53 hk),
        Binary64.ceilDiv_places hpos hsize hcount hsize53 hk]
    · decide +kernel

/-- A page that holds everything is the only one, however large it is. -/
theorem totalPages_le_one {count size : Nat} (hsize : 1 ≤ size) (h : count ≤ size) :
    ∃ pages : Nat, totalPages count size = .ok (pages : Int) ∧ pages ≤ 1 := by
  rcases Nat.eq_zero_or_pos count with rfl | hpos
  · exact ⟨0, totalPages_eq hsize (Binary64.ceil?_ofQuotient_zero size), by decide⟩
  · obtain ⟨pages, hpages, hle⟩ := Binary64.ceil?_ofQuotient_le_one hpos.ne' hsize h
    exact ⟨pages, totalPages_eq hsize hpages, hle⟩

/-- The number of pages of a list that a client gets to see: an empty list still has one. -/
def pagesOf (count size : Nat) : Nat := max 1 ((count + size - 1) / size)

/-- So many pages hold all items exactly if they are no fewer than the quotient rounded up. -/
theorem ceilDiv_le_iff {count size pages : Nat} (hsize : 1 ≤ size) :
    (count + size - 1) / size ≤ pages ↔ count ≤ pages * size := by
  rw [← Nat.ceilDiv_eq_add_pred_div, ceilDiv_le_iff_le_mul hsize, Nat.mul_comm]

theorem le_pagesOf_mul {count size : Nat} (hsize : 1 ≤ size) : count ≤ pagesOf count size * size :=
  (ceilDiv_le_iff hsize).mp (Nat.le_max_right _ _)

theorem pagesOf_le {count size : Nat} (hsize : 1 ≤ size) : pagesOf count size ≤ max 1 count :=
  max_le_max le_rfl ((ceilDiv_le_iff hsize).mpr (Nat.le_mul_of_pos_right count hsize))

/-- A page is followed by another exactly if it is not the last that a client gets to see. -/
theorem totalPages_spec {count size : Nat} (hcount : count ≤ 2 ^ 53) (hsize : 1 ≤ size) :
    ∃ pages : Int, totalPages count size = .ok pages ∧
      ∀ number : Nat, 1 ≤ number → ((number : Int) < pages ↔ number < pagesOf count size) := by
  rcases Nat.lt_or_ge size count with hlt | hge
  · refine ⟨_, totalPages_exact hcount hsize (hlt.le.trans hcount), fun number hn => ?_⟩
    rw [pagesOf]
    omega
  · obtain ⟨pages, hpages, hle⟩ := totalPages_le_one hsize hge
    have hone : (count + size - 1) / size ≤ 1 := (ceilDiv_le_iff hsize).mpr (by omega)
    refine ⟨pages, hpages, fun number hn => ?_⟩
    rw [pagesOf]
    omega

end DocumentApi
