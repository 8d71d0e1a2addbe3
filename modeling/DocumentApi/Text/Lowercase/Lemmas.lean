import DocumentApi.Text.Lowercase

/-!
What the lower-case form tells of a text: marks and figures come from themselves only, and a text is
never shorter than a part of it. Main statements: `lower_eq_iff`, `eq_of_lower_eq`.
-/

set_option autoImplicit false

namespace DocumentApi.Text

theorem toLower_eq_iff {c d : Char} (hd : d.toNat ≤ 0x40) : c.toLower = d ↔ c = d := by
  have hlarge : ∀ {e : Char}, 'A'.val ≤ e.val → 0x40 < e.toNat := by
    intro e he
    have hle := UInt32.le_iff_toNat_le.mp he
    exact Nat.lt_of_lt_of_le (by decide) hle
  unfold Char.toLower
  split
  · rename_i hletter
    constructor
    · rintro rfl
      have hsum : (c.val + ('a'.val - 'A'.val)).toNat = c.toNat + 32 := by
        have hlast := UInt32.le_iff_toNat_le.mp hletter.2
        have hshift : ('a'.val - 'A'.val).toNat = 32 := rfl
        rw [UInt32.toNat_add, hshift]
        exact Nat.mod_eq_of_lt (Nat.lt_of_le_of_lt (Nat.add_le_add_right hlast 32) (by decide))
      have hfirst := hlarge hletter.1
      have hd : (c.val + ('a'.val - 'A'.val)).toNat ≤ 0x40 := hd
      omega
    · rintro rfl
      exact absurd hd (Nat.not_le.mpr (hlarge hletter.1))
  · exact Iff.rfl

/-- No character but itself is written in lower case as one of those before the letters. -/
theorem lowerChar_eq_iff {c d : Char} (hpos : 0 < d.toNat) (hd : d.toNat ≤ 0x40) :
    lowerChar c = d ↔ c = d := by
  unfold lowerChar
  split
  · exact toLower_eq_iff hd
  · rename_i hc
    have htable : ∀ r ∈ lowerRanges, (0x40 : Int) < r.first + r.offset := by decide +kernel
    have hne : c ≠ d := by
      rintro rfl
      omega
    have hmapped : ∀ n, lowerRanges.findSome? (·.lower? c.toNat) = some n → Char.ofNat n ≠ d := by
      intro n hn heq
      obtain ⟨r, hr, hlower⟩ := List.exists_of_findSome?_eq_some hn
      have hrange := htable r hr
      unfold CaseRange.lower? at hlower
      split at hlower
      · cases hlower
        by_cases hvalid : (c.toNat + r.offset).toNat.isValidChar
        · rw [Char.ofNat, dif_pos hvalid] at heq
          have htoNat : (c.toNat + r.offset).toNat = d.toNat := congrArg Char.toNat heq
          omega
        · rw [Char.ofNat, dif_neg hvalid] at heq
          have htoNat : 0 = d.toNat := congrArg Char.toNat heq
          omega
      · cases hlower
    cases hfound : lowerRanges.findSome? (·.lower? c.toNat) with
    | none => exact Iff.rfl
    | some n => exact iff_of_false (hmapped n hfound) hne

theorem lowerFrom_eq_iff {cs ds : List Char} (h : ∀ d ∈ ds, 0 < d.toNat ∧ d.toNat ≤ 0x40)
    (before : List Char) : lowerFrom before cs = ds ↔ cs = ds := by
  induction cs generalizing ds before with
  | nil => simp [lowerFrom, eq_comm]
  | cons c rest ih =>
    rw [lowerFrom]
    cases ds with
    | nil =>
      simp only [List.append_eq_nil_iff, reduceCtorEq, iff_false, not_and]
      intro hnil
      split at hnil
      · simp at hnil
      · split at hnil <;> simp at hnil
    | cons d others =>
      obtain ⟨hpos, hle⟩ := h d List.mem_cons_self
      have hrest := ih (fun e he => h e (List.mem_cons_of_mem d he)) (c :: before)
      have hout : ∀ e ∈ ['Σ', 'σ', 'ς', 'İ', 'i'], e ≠ d := by
        intro e he hed
        have hall : ∀ e ∈ ['Σ', 'σ', 'ς', 'İ', 'i'], 0x40 < e.toNat := by simp
        have hletter := hall e he
        rw [hed] at hletter
        omega
      split
      · rename_i hsigma
        subst hsigma
        split <;> simp [hout]
      · split
        · rename_i hdotted
          subst hdotted
          simp [hout]
        · simp [lowerChar_eq_iff hpos hle, hrest]

/-- Text before the letters is the lower-case form of itself only. -/
theorem lower_eq_iff {cs ds : List Char} (h : ∀ d ∈ ds, 0 < d.toNat ∧ d.toNat ≤ 0x40) :
    lower cs = ds ↔ cs = ds :=
  lowerFrom_eq_iff h []

/-- Every character is written as one, apart from the capital I with a dot, which is two. -/
theorem length_lowerFrom (before cs : List Char) :
    (lowerFrom before cs).length = cs.length + cs.count 'İ' := by
  induction cs generalizing before with
  | nil => rfl
  | cons c rest ih =>
    rw [lowerFrom, List.length_append, ih (c :: before), List.length_cons, List.count_cons]
    by_cases hsigma : c = 'Σ'
    · subst hsigma
      simp
      omega
    · by_cases hdotted : c = 'İ'
      · subst hdotted
        simp
        omega
      · simp [hsigma, hdotted]
        omega

/-- A part of a text has the same lower-case form only if it is all of the text. -/
theorem eq_of_lower_eq {cs ds : List Char} (hsub : ds.Sublist cs) (h : lower ds = lower cs) :
    ds = cs := by
  have hlength := congrArg List.length h
  rw [lower, lower, length_lowerFrom, length_lowerFrom] at hlength
  have hcount := hsub.count_le 'İ'
  have hle := hsub.length_le
  exact hsub.eq_of_length (by omega)

end DocumentApi.Text
