import DocumentApi.Page

/-!
What becomes of the raw values that a page is asked for with. A value that is converted to an
integer gives the nearest one within the bounds, any other counts as missing, except that an
infinite number is refused. Main statement: `clamped_nearest`.
-/

set_option autoImplicit false

namespace DocumentApi

namespace Value

def IsInfinite (v : Value) : Prop := ∃ negative, v = .float (.infinite negative)

/-- The integer that a value is converted to; a fraction is cut off. -/
inductive ConvertsTo : Value → Int → Prop
  | bool (b : Bool) : ConvertsTo (.bool b) (if b then 1 else 0)
  | int (i : Int) : ConvertsTo (.int i) i
  | float {x : Binary64} {i : Int} (h : x.truncate? = some i) : ConvertsTo (.float x) i
  | text {s : String} {i : Int} (h : Numeral.readInt s.toList = .ok i) : ConvertsTo (.string s) i

def Unconvertible (v : Value) : Prop := ∀ i, ¬ v.ConvertsTo i

/-- The integer that is taken for a value. -/
inductive StandsFor (v : Value) (fallback : Int) : Int → Prop
  | converted {i : Int} (h : v.ConvertsTo i) : StandsFor v fallback i
  | fallback (h : v.Unconvertible) : StandsFor v fallback fallback

theorem unconvertible_of_isInfinite {v : Value} (h : v.IsInfinite) : v.Unconvertible := by
  obtain ⟨negative, rfl⟩ := h
  intro i hi
  cases hi with
  | float h => cases h

end Value

theorem integerOf_infinite {v : Value} (h : v.IsInfinite) :
    integerOf v = .error .infiniteInteger := by
  obtain ⟨negative, rfl⟩ := h
  rfl

/-- What is not infinite is converted or read as no integer. -/
theorem integerOf_cases {v : Value} (h : ¬ v.IsInfinite) :
    (∃ i, v.ConvertsTo i ∧ integerOf v = .ok (some i)) ∨
      v.Unconvertible ∧ integerOf v = .ok none := by
  cases v with
  | bool b => exact .inl ⟨_, .bool b, rfl⟩
  | int i => exact .inl ⟨i, .int i, rfl⟩
  | float x =>
    cases x with
    | infinite negative => exact absurd ⟨negative, rfl⟩ h
    | nan =>
      refine .inr ⟨fun i hi => ?_, rfl⟩
      cases hi with
      | float hx => cases hx
    | finite negative m e => exact .inl ⟨_, .float rfl, rfl⟩
  | string s =>
    cases hread : Numeral.readInt s.toList with
    | ok i =>
      refine .inl ⟨i, .text hread, ?_⟩
      rw [integerOf, hread]
      rfl
    | error fault =>
      refine .inr ⟨fun i hi => ?_, ?_⟩
      · cases hi with
        | text hs => cases hread.symm.trans hs
      · rw [integerOf, hread]
        rfl
  | _ => exact .inr ⟨nofun, rfl⟩

theorem integerOf_of_unconvertible {v : Value} (hfinite : ¬ v.IsInfinite) (h : v.Unconvertible) :
    integerOf v = .ok none := by
  rcases integerOf_cases hfinite with ⟨i, hi, -⟩ | ⟨-, hnone⟩
  · exact absurd hi (h i)
  · exact hnone

/-- Of the integers from the least to the most, the one that is nearest to an integer. -/
structure Nearest (least : Int) (most : Option Int) (i nearest : Int) : Prop where
  least_le : least ≤ nearest
  le_most : ∀ max ∈ most, nearest ≤ max
  raised : i < nearest → nearest = least
  lowered : nearest < i → most = some nearest

theorem nearest_clamp {least : Int} {most : Option Int} (h : ∀ max ∈ most, least ≤ max) (i : Int) :
    Nearest least most i (atMost most (atLeast (some least) i)) := by
  cases most with
  | none =>
    simp only [atMost, atLeast, Option.elim_none, Option.elim_some]
    exact ⟨by omega, nofun, by omega, by omega⟩
  | some max =>
    have hle := h max rfl
    simp only [atMost, atLeast, Option.elim_some]
    refine ⟨by omega, ?_, by omega, fun hlower => congrArg some (by omega)⟩
    intro limit hlimit
    cases hlimit
    omega

section
variable {v : Value} (least : Int) (most : Option Int) (fallback : Int)

theorem bound_infinite (h : v.IsInfinite) :
    bound (some least) v most fallback = .error .infiniteInteger := by
  rw [bound, integerOf_infinite h]
  rfl

theorem bound_of_unconvertible (hfinite : ¬ v.IsInfinite) (h : v.Unconvertible) :
    bound (some least) v most fallback = bound (some least) .null most fallback := by
  rw [bound, integerOf_of_unconvertible hfinite h]
  rfl

theorem bound_nearest (hmost : ∀ max ∈ most, least ≤ max) (hfinite : ¬ v.IsInfinite) :
    ∃ i nearest, bound (some least) v most fallback = .ok nearest ∧ v.StandsFor fallback i ∧
      Nearest least most i nearest := by
  rcases integerOf_cases hfinite with ⟨i, hi, hread⟩ | ⟨h, hread⟩
  · refine ⟨i, _, ?_, .converted hi, nearest_clamp hmost i⟩
    rw [bound, hread]
    rfl
  · refine ⟨fallback, _, ?_, .fallback h, nearest_clamp hmost fallback⟩
    rw [bound, hread]
    rfl

end

namespace PageRequest

theorem exists_ofInts {size current : Int} (hs : 1 ≤ size) (hc : 1 ≤ current) :
    ∃ page, ofInts size current = .ok page ∧ page.size = size ∧ page.current = current := by
  rw [ofInts, dif_neg (by omega), dif_neg (by omega)]
  exact ⟨_, rfl, Int.toNat_of_nonneg (by omega), Int.toNat_of_nonneg (by omega)⟩

theorem exists_clamped {limits : PageLimits} (hmax : ∀ max ∈ limits.max, 1 ≤ max)
    {size number : Value} (hsize : ¬ size.IsInfinite) (hnumber : ¬ number.IsInfinite) :
    ∃ (page : PageRequest) (i j : Int), clamped size number limits = .ok page ∧
      size.StandsFor limits.default i ∧ Nearest 1 limits.max i page.size ∧
      number.StandsFor 1 j ∧ Nearest 1 none j page.current := by
  obtain ⟨i, granted, hgranted, hi, hni⟩ := bound_nearest 1 limits.max limits.default hmax hsize
  obtain ⟨j, current, hcurrent, hj, hnj⟩ := bound_nearest 1 none 1 nofun hnumber
  obtain ⟨page, hpage, hps, hpc⟩ := exists_ofInts hni.least_le hnj.least_le
  refine ⟨page, i, j, ?_, hi, hps.symm ▸ hni, hj, hpc.symm ▸ hnj⟩
  rw [clamped, hgranted, Answer.ok_bind, hcurrent, Answer.ok_bind, hpage]

theorem clamped_infinite {limits : PageLimits} (hmax : ∀ max ∈ limits.max, 1 ≤ max)
    {size number : Value} (h : size.IsInfinite ∨ number.IsInfinite) :
    clamped size number limits = .error .infiniteInteger := by
  by_cases hsize : size.IsInfinite
  · rw [clamped, bound_infinite _ _ _ hsize]
    rfl
  · obtain ⟨_, granted, hgranted, -, -⟩ := bound_nearest 1 limits.max limits.default hmax hsize
    rw [clamped, hgranted, Answer.ok_bind, bound_infinite _ _ _ (h.resolve_left hsize)]
    rfl

/-- A page is made of all values but infinite ones: its size and its number are the nearest within
the bounds to the integers that the values stand for, and a value that is converted to none gives
the same page as a missing one. -/
theorem clamped_nearest {limits : PageLimits} (hmax : ∀ max ∈ limits.max, 1 ≤ max)
    (size number : Value) :
    (size.IsInfinite ∨ number.IsInfinite →
      clamped size number limits = .error .infiniteInteger) ∧
    (¬ size.IsInfinite → ¬ number.IsInfinite → ∃ (page : PageRequest) (i j : Int),
      clamped size number limits = .ok page ∧
      size.StandsFor limits.default i ∧ Nearest 1 limits.max i page.size ∧
      number.StandsFor 1 j ∧ Nearest 1 none j page.current) ∧
    (¬ size.IsInfinite → size.Unconvertible →
      clamped size number limits = clamped .null number limits) ∧
    (¬ number.IsInfinite → number.Unconvertible →
      clamped size number limits = clamped size .null limits) := by
  refine ⟨clamped_infinite hmax, exists_clamped hmax, ?_, ?_⟩
  · intro hsize h
    rw [clamped, clamped, bound_of_unconvertible _ _ _ hsize h]
  · intro hnumber h
    rw [clamped, clamped, bound_of_unconvertible _ _ _ hnumber h]

/-- More than there may be in one page, and a page number that is no number. -/
theorem clamped_nearest_greedy :
    (∀ max ∈ PageLimits.standard.max, 1 ≤ max) ∧
    ¬ (Value.string " +1_000").IsInfinite ∧ ¬ (Value.float .nan).IsInfinite ∧
    (Value.float .nan).Unconvertible ∧
    (∃ page, clamped (.string " +1_000") (.float .nan) PageLimits.standard = .ok page ∧
      (Value.string " +1_000").StandsFor 10 1000 ∧ Nearest 1 (some 200) 1000 page.size) ∧
    clamped (.string " +1_000") (.float .nan) PageLimits.standard =
      clamped (.string " +1_000") .null PageLimits.standard := by
  have hmax : ∀ max ∈ PageLimits.standard.max, 1 ≤ max := by decide
  have hsize : ¬ (Value.string " +1_000").IsInfinite := nofun
  have hnumber : ¬ (Value.float .nan).IsInfinite := nofun
  have hnan : (Value.float .nan).Unconvertible := by
    intro i hi
    cases hi with
    | float hx => cases hx
  have hread : Numeral.readInt " +1_000".toList = .ok 1000 := rfl
  obtain ⟨-, hgiven, -, hnull⟩ :=
    clamped_nearest hmax (.string " +1_000") (.float .nan)
  obtain ⟨page, i, j, hpage, hi, hnearest, -, -⟩ := hgiven hsize hnumber
  have hthousand : i = 1000 := by
    cases hi with
    | converted hi =>
      cases hi with
      | text hs => exact Except.ok.inj (hs.symm.trans hread)
    | fallback h => exact absurd (.text hread) (h 1000)
  subst hthousand
  exact ⟨hmax, hsize, hnumber, hnan, ⟨page, hpage, .converted (.text hread), hnearest⟩,
    hnull hnumber hnan⟩

/-- An infinite size is converted to no integer, and still it does not count as missing. -/
theorem clamped_infinite_size :
    (1 ≤ PageLimits.standard.default ∧ ∀ max ∈ PageLimits.standard.max, 1 ≤ max) ∧
    (Value.float (.infinite false)).Unconvertible ∧
    clamped (.float (.infinite false)) .null PageLimits.standard = .error .infiniteInteger ∧
    clamped .null .null PageLimits.standard = .ok ⟨10, 1, by decide, by decide⟩ :=
  ⟨by decide, Value.unconvertible_of_isInfinite ⟨false, rfl⟩, rfl, rfl⟩

end PageRequest

end DocumentApi
