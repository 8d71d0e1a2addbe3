import DocumentApi.PageLinks
import DocumentApi.Proofs.Url.RoundTrip

/-!
Addresses of the pages of a list. A link sets the two parameters of a page and keeps the values of
every other parameter in their order; what is read back from its text is an address of that page.
-/

set_option autoImplicit false

namespace DocumentApi

namespace RelativeUrl

open Url

def valuesOf (params : List Param) (name : String) : List Param :=
  params.filter fun p => p.1 = name

theorem valuesOf_setFirst_self (name value : String) (params : List Param) :
    valuesOf (setFirst name value params) name = [(name, value)] := by
  induction params with
  | nil => simp [setFirst, valuesOf]
  | cons p rest ih =>
    by_cases h : p.1 = name
    · simp [setFirst, h, valuesOf]
    · simpa [setFirst, h, valuesOf] using ih

theorem valuesOf_setFirst_of_ne {name other : String} (h : other ≠ name) (value : String)
    (params : List Param) : valuesOf (setFirst name value params) other = valuesOf params other := by
  induction params with
  | nil => simp [setFirst, valuesOf, h.symm]
  | cons p rest ih =>
    by_cases hp : p.1 = name
    · have hrest : ∀ q ∈ rest, (decide (q.1 = other) && decide (q.1 ≠ name)) =
          decide (q.1 = other) := by
        intro q _
        by_cases hq : q.1 = other <;> simp [hq, h]
      simp only [setFirst, hp, if_true, valuesOf, List.filter_cons, h.symm, decide_false,
        Bool.false_eq_true, if_false, List.filter_filter]
      exact List.filter_congr hrest
    · by_cases ho : p.1 = other
      · simpa [setFirst, hp, valuesOf, ho, h] using ih
      · simpa [setFirst, hp, valuesOf, ho] using ih

theorem valuesOf_sortParams (params : List Param) (name : String) :
    valuesOf (sortParams params) name = valuesOf params name := by
  apply filter_sortBy
  intro a _ b _ ha hb
  rw [of_decide_eq_true ha, of_decide_eq_true hb]
  exact decide_eq_true (String.le_refl name)

end RelativeUrl

/-- An address with the parameters of one page, that otherwise asks for the same as another. -/
structure AtPage (origin u : RelativeUrl) (size number : Nat) : Prop where
  writable : RelativeUrl.Writable u
  size : RelativeUrl.valuesOf u.params PageLinks.sizeParam = [(PageLinks.sizeParam, toString size)]
  number : RelativeUrl.valuesOf u.params PageLinks.numberParam =
    [(PageLinks.numberParam, toString number)]
  others : ∀ name, name ≠ PageLinks.sizeParam → name ≠ PageLinks.numberParam →
    RelativeUrl.valuesOf u.params name = RelativeUrl.valuesOf origin.params name

section
variable {origin u : RelativeUrl} {size number : Nat}

theorem AtPage.sorted (h : AtPage origin u size number) :
    AtPage origin ⟨u.path, Url.sortParams u.params, u.fragment⟩ size number where
  writable := ⟨h.writable.rooted, h.writable.single, h.writable.path, h.writable.fragment⟩
  size := (RelativeUrl.valuesOf_sortParams u.params _).trans h.size
  number := (RelativeUrl.valuesOf_sortParams u.params _).trans h.number
  others := by
    intro name hsize hnumber
    rw [RelativeUrl.valuesOf_sortParams, h.others name hsize hnumber]

theorem AtPage.setNumber (h : AtPage origin u size number) (other : Nat) :
    AtPage origin (u.setParam PageLinks.numberParam (toString other)) size other where
  writable := ⟨h.writable.rooted, h.writable.single, h.writable.path, h.writable.fragment⟩
  size := (RelativeUrl.valuesOf_setFirst_of_ne (by decide) _ u.params).trans h.size
  number := RelativeUrl.valuesOf_setFirst_self _ _ u.params
  others := by
    intro name hsize hnumber
    rw [RelativeUrl.setParam, RelativeUrl.valuesOf_setFirst_of_ne hnumber,
      h.others name hsize hnumber]

/-- What is written for a page is read back as an address of that page. -/
theorem AtPage.ofText_text (h : AtPage origin u size number) :
    ∃ link, RelativeUrl.ofText u.text = .ok link ∧ AtPage origin link size number :=
  ⟨_, RelativeUrl.ofText_text h.writable, h.sorted⟩

end

namespace PageLinks

open RelativeUrl

variable {origin u : RelativeUrl} (hu : Writable u)
  (hothers : ∀ name, name ≠ sizeParam → name ≠ numberParam →
    valuesOf u.params name = valuesOf origin.params name)
include hu hothers

theorem atPage_currentUrl (page : PageRequest) :
    AtPage origin (currentUrl page u) page.size page.current where
  writable := ⟨hu.rooted, hu.single, hu.path, hu.fragment⟩
  size := by
    have hne : sizeParam ≠ numberParam := by decide
    rw [currentUrl, setParam, valuesOf_setFirst_of_ne hne]
    exact valuesOf_setFirst_self _ _ _
  number := valuesOf_setFirst_self _ _ _
  others := by
    intro name hsize hnumber
    rw [currentUrl, setParam, valuesOf_setFirst_of_ne hnumber, setParam,
      valuesOf_setFirst_of_ne hsize, hothers name hsize hnumber]

/-- A link from an address is read back as an address of the page that it is for. -/
theorem ofText_linkTo (page : PageRequest) (number : Nat) :
    ∃ link, RelativeUrl.ofText (linkTo page u number) = .ok link ∧
      AtPage origin link page.size number :=
  ((atPage_currentUrl hu hothers page).setNumber number).ofText_text

end PageLinks

end DocumentApi
