import DocumentApi.Proofs.Number.PageCount
import Mathlib.Order.Bounds.Defs

/-!
The items that a page shows are a window of the list. The windows of the pages of one size do not
overlap, and the number of pages is the least with which they hold all items, none of them empty.
Main statement: `totalPages_partition`.
-/

set_option autoImplicit false

namespace DocumentApi

namespace PageRequest

/-- The page shows the item at an index, counted from zero. -/
def Shows (page : PageRequest) (index : Nat) : Prop :=
  page.offset ≤ index ∧ index < page.offset + page.size

/-- An item is on the page that its index falls in. -/
theorem shows_iff {page : PageRequest} {index : Nat} :
    page.Shows index ↔ page.current = index / page.size + 1 := by
  have hsize := page.size_pos
  have hcurrent := page.current_pos
  have hnumber : page.current = index / page.size + 1 ↔ index / page.size = page.current - 1 := by
    omega
  rw [hnumber, Nat.div_eq_iff hsize, Shows, offset]
  omega

theorem shows_offset (page : PageRequest) : page.Shows page.offset :=
  ⟨le_rfl, Nat.lt_add_of_pos_right page.size_pos⟩

theorem eq_of_size_of_current {page other : PageRequest} (hsize : page.size = other.size)
    (hcurrent : page.current = other.current) : page = other := by
  cases page
  cases other
  cases hsize
  cases hcurrent
  rfl

end PageRequest

/-- No negative number of pages holds a list, not even the empty one. -/
theorem isLeast_ceilDiv {count size : Nat} (hsize : 1 ≤ size) :
    IsLeast {p : Int | (count : Int) ≤ p * size} (((count + size - 1) / size : Nat) : Int) := by
  constructor
  · have hall : count ≤ (count + size - 1) / size * size := (ceilDiv_le_iff hsize).mp le_rfl
    change (count : Int) ≤ _
    exact_mod_cast hall
  · intro p hp
    change (count : Int) ≤ p * size at hp
    have hnonneg : 0 ≤ p := by
      have hpos : (0 : Int) < size := by omega
      have hproduct : 0 ≤ p * size := by omega
      exact nonneg_of_mul_nonneg_left hproduct hpos
    obtain ⟨n, rfl⟩ := Int.eq_ofNat_of_zero_le hnonneg
    exact Int.ofNat_le.mpr ((ceilDiv_le_iff hsize).mpr (by exact_mod_cast hp))

/-- The number of pages is the least that hold all items. Each item is on exactly one of the pages,
and each page, so the last one too, has an item. -/
theorem totalPages_partition {count size : Nat} (hcount : count ≤ 2 ^ 53) (hsize : 1 ≤ size)
    (hsize53 : size ≤ 2 ^ 53) :
    ∃ pages : Nat, totalPages count size = .ok (pages : Int) ∧
      IsLeast {p : Int | (count : Int) ≤ p * size} pages ∧
      (∀ index < count,
        ∃! page : PageRequest, (page.size = size ∧ page.current ≤ pages) ∧ page.Shows index) ∧
      (∀ page : PageRequest, page.size = size → page.current ≤ pages →
        ∃ index < count, page.Shows index) ∧
      (0 < count → ∃ last : PageRequest, last.size = size ∧ last.current = pages) := by
  refine ⟨(count + size - 1) / size, totalPages_exact hcount hsize hsize53,
    isLeast_ceilDiv hsize, ?_⟩
  have hleast : ∀ p : Nat, (count + size - 1) / size ≤ p ↔ count ≤ p * size := by
    intro p
    exact ceilDiv_le_iff hsize
  generalize (count + size - 1) / size = pages at hleast
  refine ⟨?_, ?_, ?_⟩
  · intro index hindex
    have hall : count ≤ pages * size := (hleast pages).mp le_rfl
    have hpage : index / size < pages := by
      apply Nat.div_lt_of_lt_mul
      rw [Nat.mul_comm]
      omega
    let page : PageRequest := ⟨size, index / size + 1, hsize, Nat.le_add_left 1 _⟩
    refine ⟨page, ⟨⟨rfl, hpage⟩, PageRequest.shows_iff.mpr rfl⟩, ?_⟩
    intro other hother
    obtain ⟨⟨hsame, -⟩, hshows⟩ := hother
    apply PageRequest.eq_of_size_of_current hsame
    rw [PageRequest.shows_iff.mp hshows, hsame]
  · intro page hsame hle
    refine ⟨page.offset, ?_, page.shows_offset⟩
    by_contra hbeyond
    have hfewer : pages ≤ page.current - 1 := by
      apply (hleast _).mpr
      rw [← hsame]
      exact Nat.le_of_not_lt hbeyond
    have hpos := page.current_pos
    omega
  · intro hitems
    have hpos : 1 ≤ pages := by
      by_contra hnone
      have hempty : count ≤ 0 * size := (hleast 0).mp (by omega)
      omega
    exact ⟨⟨size, pages, hsize, hpos⟩, rfl, rfl⟩

/-- One item more than fits on a page of the greatest odd size: the quotient is just above one, half
way to the next binary64 number. -/
theorem totalPages_partition_justAbove :
    2 ^ 53 ≤ 2 ^ 53 ∧ 1 ≤ 2 ^ 53 - 1 ∧ 2 ^ 53 - 1 ≤ 2 ^ 53 ∧
    ∃ pages : Nat, totalPages (2 ^ 53 : Nat) (2 ^ 53 - 1 : Nat) = .ok (pages : Int) ∧ pages = 2 ∧
      IsLeast {p : Int | ((2 ^ 53 : Nat) : Int) ≤ p * (2 ^ 53 - 1 : Nat)} pages := by
  have hcount : 2 ^ 53 ≤ 2 ^ 53 := le_rfl
  have hsize : 1 ≤ 2 ^ 53 - 1 := by decide
  obtain ⟨pages, hpages, hleast, -⟩ := totalPages_partition hcount hsize (by decide)
  have htwo : totalPages (2 ^ 53 : Nat) (2 ^ 53 - 1 : Nat) = .ok 2 := by decide +kernel
  have heq : (pages : Int) = 2 := Except.ok.inj (hpages.symm.trans htwo)
  exact ⟨hcount, hsize, by decide, pages, hpages, by omega, hleast⟩

end DocumentApi
