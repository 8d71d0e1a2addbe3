import DocumentApi.Proofs.Number.PageCount
import DocumentApi.Proofs.Paging.Query
import DocumentApi.Proofs.Url.Canonical

/-!
The links of a page say what they are for: each of them is read back with the parameters of its page
in place of all those that the address had, with everything else as it was, and where nothing else
is written under the page it asks for this page. Main statement: `links_lead`.
-/

set_option autoImplicit false

namespace DocumentApi

open Url RelativeUrl

theorem Numeral.pow_lt_pow_maxDigits {digits : Nat} (h : digits < maxDigits) :
    10 ^ digits < 10 ^ maxDigits :=
  Nat.pow_lt_pow_right (by decide) h

/-! Parameters of a page. -/

def otherParams (params : List Param) : List Param :=
  params.filter fun p => p.1 ≠ PageLinks.sizeParam ∧ p.1 ≠ PageLinks.numberParam

/-- The parameters with one size and one number in place of all that they have. -/
def withPage (params : List Param) (size number : Nat) : List Param :=
  otherParams params ++
    [(PageLinks.sizeParam, toString size), (PageLinks.numberParam, toString number)]

theorem valuesOf_otherParams {name : String} (hsize : name ≠ PageLinks.sizeParam)
    (hnumber : name ≠ PageLinks.numberParam) (params : List Param) :
    valuesOf (otherParams params) name = valuesOf params name := by
  rw [valuesOf, otherParams, List.filter_filter]
  apply List.filter_congr
  intro p _
  by_cases hp : p.1 = name <;> simp [hp, hsize, hnumber]

theorem valuesOf_otherParams_eq_nil {name : String}
    (h : name = PageLinks.sizeParam ∨ name = PageLinks.numberParam) (params : List Param) :
    valuesOf (otherParams params) name = [] := by
  rw [valuesOf, otherParams, List.filter_filter, List.filter_eq_nil_iff]
  intro p _
  rcases h with rfl | rfl <;> simp +contextual

theorem AtPage.valuesOf_eq {origin u : RelativeUrl} {size number : Nat}
    (h : AtPage origin u size number) (name : String) :
    valuesOf u.params name = valuesOf (withPage origin.params size number) name := by
  have hne : PageLinks.sizeParam ≠ PageLinks.numberParam := by decide
  have hsplit : valuesOf (withPage origin.params size number) name =
      valuesOf (otherParams origin.params) name ++ valuesOf
        [(PageLinks.sizeParam, toString size), (PageLinks.numberParam, toString number)] name :=
    List.filter_append _ _
  rw [hsplit]
  by_cases hsize : name = PageLinks.sizeParam
  · rw [valuesOf_otherParams_eq_nil (.inl hsize), hsize, h.size]
    simp [valuesOf, hne.symm]
  · by_cases hnumber : name = PageLinks.numberParam
    · rw [valuesOf_otherParams_eq_nil (.inr hnumber), hnumber, h.number]
      simp [valuesOf, hne]
    · rw [valuesOf_otherParams hsize hnumber, h.others name hsize hnumber]
      simp [valuesOf, Ne.symm hsize, Ne.symm hnumber]

namespace RelativeUrl

/-- A stable sort of parameters is one of any others that give each name the same values. -/
theorem SortedByName.congr {params others sorted : List Param} (h : SortedByName params sorted)
    (heq : ∀ name, values params name = values others name) : SortedByName others sorted := by
  have hsorted := sortedByName_sortParams others
  rw [h.unique hsorted heq]
  exact hsorted

end RelativeUrl

/-! Links. -/

/-- No parameter has a name that starts like those of a page, apart from these. -/
def NoOtherPage (params : List Param) : Prop :=
  ∀ p ∈ params, "page[".toList <+: p.1.toList →
    p.1 = PageLinks.sizeParam ∨ p.1 = PageLinks.numberParam

theorem NoOtherPage.pageOnly {params : List Param} (h : NoOtherPage params) :
    DeepObject.PageOnly params := by
  intro p hp
  by_cases hpage : "page[".toList <+: p.1.toList
  · exact .inr (h p hp hpage)
  · left
    rw [DeepObject.afterKey?, if_neg]
    intro hunder
    exact hpage (List.isPrefixOf_iff_prefix.mp hunder)

/-- A link that is read back with the parameters of a page in place of those of the address, the
others in their order name by name, and that asks for this page if nothing else is written under the
page and the limits allow the size. -/
def LeadsTo (origin : RelativeUrl) (size number : Nat) (link : String) : Prop :=
  ∃ u, RelativeUrl.ofText link = .ok u ∧
    SortedByName (withPage origin.params size number) u.params ∧
    (NoOtherPage origin.params → ∀ s : QuerySettings, s.pageKey = "page" →
      (∀ max ∈ s.limits.max, (size : Int) ≤ max) →
      ∀ page : PageRequest, page.size = size → page.current = number →
        s.page (stringPairs u.params) = .ok page)

theorem AtPage.noOtherPage {origin u : RelativeUrl} {size number : Nat}
    (h : AtPage origin u size number) (horigin : NoOtherPage origin.params) :
    NoOtherPage u.params := by
  intro p hp hpage
  rcases h.mem_params hp with hs | hn | hold
  · exact .inl hs
  · exact .inr hn
  · exact horigin p hold hpage

theorem AtPage.page_eq {origin u : RelativeUrl} {page : PageRequest}
    (h : AtPage origin u page.size page.current) (horigin : NoOtherPage origin.params)
    {s : QuerySettings} (hkey : s.pageKey = "page")
    (hmax : ∀ max ∈ s.limits.max, (page.size : Int) ≤ max)
    (hsize : page.size < 10 ^ Numeral.maxDigits) (hnumber : page.current < 10 ^ Numeral.maxDigits) :
    s.page (stringPairs u.params) = .ok page := by
  have hnone : ∀ max ∈ (none : Option Int), (page.current : Int) ≤ max := by simp
  rw [QuerySettings.page_eq hkey (h.noOtherPage horigin).pageOnly, textsOf_of_valuesOf h.size,
    textsOf_of_valuesOf h.number]
  simp only [PageRequest.clamped, DeepObject.gathered, Option.getD_some]
  rw [bound_written page.size_pos hsize hmax, Answer.ok_bind,
    bound_written page.current_pos hnumber hnone, Answer.ok_bind]
  exact PageRequest.ofInts_natCast page.size_pos page.current_pos

/-- What is written for a page leads to it. -/
theorem AtPage.leadsTo {origin u : RelativeUrl} {size number : Nat}
    (h : AtPage origin u size number) (hsize : size < 10 ^ Numeral.maxDigits)
    (hnumber : number < 10 ^ Numeral.maxDigits) : LeadsTo origin size number u.text := by
  refine ⟨_, RelativeUrl.ofText_text h.writable, ?_, ?_⟩
  · apply (sortedByName_sortParams u.params).congr
    intro name
    exact congrArg (List.map Prod.snd) (h.valuesOf_eq name)
  · intro horigin s hkey hmax page hs hn
    subst hs
    subst hn
    exact h.sorted.page_eq horigin hkey hmax hsize hnumber

/-- The links of a page lead to this page, the first, the last, the next and the previous one, where
there is a next and a previous one. -/
theorem links_lead {count : Nat} {page : PageRequest} {address : String} {origin : RelativeUrl}
    (hcount : count ≤ 2 ^ 53) (hsize : page.size ≤ 2 ^ 53) (hcurrent : page.current < 10 ^ 4299)
    (hurl : RelativeUrl.ofText address = .ok origin)
    (hsingle : ¬ ['/', '/'] <+: origin.path.toList) :
    ∃ (links : PageLinks) (pages : Nat), PageLinks.ofText count page address = .ok links ∧
      totalPages count page.size = .ok (pages : Int) ∧ links.totalPages = pages ∧
      LeadsTo origin page.size page.current links.current ∧
      LeadsTo origin page.size 1 links.first ∧
      LeadsTo origin page.size pages links.last ∧
      (links.next.isSome ↔ page.current < pages) ∧
      (∀ link ∈ links.next, LeadsTo origin page.size (page.current + 1) link) ∧
      (links.previous.isSome ↔ 1 < page.current) ∧
      ∀ link ∈ links.previous, LeadsTo origin page.size (page.current - 1) link := by
  have hpages := totalPages_exact hcount page.size_pos hsize
  have hfew : (count + page.size - 1) / page.size ≤ max 1 count :=
    (Nat.le_max_right 1 _).trans (pagesOf_le page.size_pos)
  generalize (count + page.size - 1) / page.size = pages at hpages hfew
  have hlinks : PageLinks.ofText count page address =
      .ok (PageLinks.ofPages pages page origin) := by
    rw [PageLinks.ofText, hpages, Answer.ok_bind, hurl]
    rfl
  have hdigits : 2 ^ 53 < 10 ^ Numeral.maxDigits := by decide +kernel
  have hlonger : page.current + 1 < 10 ^ Numeral.maxDigits :=
    Nat.lt_of_le_of_lt hcurrent (Numeral.pow_lt_pow_maxDigits (by decide))
  have hread : page.size < 10 ^ Numeral.maxDigits := by omega
  have hat : AtPage origin (PageLinks.currentUrl page origin) page.size page.current :=
    PageLinks.atPage_currentUrl (writable_of_ofText hurl hsingle) (fun _ _ _ => rfl) page
  have hlink : ∀ number : Nat, number < 10 ^ Numeral.maxDigits →
      LeadsTo origin page.size number (PageLinks.linkTo page origin number) := by
    intro number hnumber
    exact (hat.setNumber number).leadsTo hread hnumber
  refine ⟨_, pages, hlinks, hpages, rfl, hat.leadsTo hread (by omega), hlink 1 (by omega),
    hlink pages (by omega), ?_, ?_, ?_, ?_⟩
  · simp only [PageLinks.ofPages, Option.isSome_ite]
    exact Int.ofNat_lt
  · intro link hnext
    simp only [PageLinks.ofPages, Option.mem_ite_none_right, Option.mem_some_iff] at hnext
    obtain ⟨-, rfl⟩ := hnext
    exact hlink (page.current + 1) (by omega)
  · simp only [PageLinks.ofPages, Option.isSome_ite]
  · intro link hprevious
    simp only [PageLinks.ofPages, Option.mem_ite_none_right, Option.mem_some_iff] at hprevious
    obtain ⟨-, rfl⟩ := hprevious
    have hcast : (page.current : Int) - 1 = (page.current - 1 : Nat) :=
      (Int.ofNat_sub page.current_pos).symm
    rw [hcast]
    exact hlink (page.current - 1) (by omega)

def fourthOfFive : PageRequest := ⟨9, 4, by decide, by decide⟩

/-- Another page is asked for, twice, between two values of one name. -/
def repeatedPages : RelativeUrl :=
  ⟨"/colors", [("page[number]", "7"), ("b", "2"), ("page[number]", "x"), ("b", "1"),
    ("page[size]", "5")], "top"⟩

theorem links_lead_repeatedPages :
    let address := "/colors?page%5Bnumber%5D=7&b=2&page[number]=x&b=1&page[size]=5#top"
    40 ≤ 2 ^ 53 ∧ fourthOfFive.size ≤ 2 ^ 53 ∧ fourthOfFive.current < 10 ^ 4299 ∧
    RelativeUrl.ofText address = .ok repeatedPages ∧
    ¬ ['/', '/'] <+: repeatedPages.path.toList ∧ NoOtherPage repeatedPages.params ∧
    ∃ links, PageLinks.ofText (40 : Nat) fourthOfFive address = .ok links ∧
      links.totalPages = 5 ∧ LeadsTo repeatedPages 9 5 links.last ∧
      ∃ link, links.next = some link ∧ LeadsTo repeatedPages 9 5 link := by
  intro address
  have hurl : RelativeUrl.ofText address = .ok repeatedPages := by decide +kernel
  have hother : NoOtherPage repeatedPages.params := by
    unfold NoOtherPage
    decide +kernel
  have hcurrent : fourthOfFive.current < 10 ^ 4299 := by decide +kernel
  have hcount : 40 ≤ 2 ^ 53 := by decide
  have hpages : totalPages (40 : Nat) fourthOfFive.size = .ok 5 := by decide +kernel
  obtain ⟨links, pages, hlinks, hsame, htotal, -, -, hlast, hnext, hleads, -⟩ :=
    links_lead hcount (by decide) hcurrent hurl (by decide)
  have hfive : (pages : Int) = 5 := Except.ok.inj (hsame.symm.trans hpages)
  obtain rfl : pages = 5 := by omega
  obtain ⟨link, hlink⟩ := Option.isSome_iff_exists.mp (hnext.mpr (by decide))
  exact ⟨hcount, by decide, hcurrent, hurl, by decide, hother, links, hlinks, htotal, hlast, link,
    hlink, hleads link hlink⟩

end DocumentApi
