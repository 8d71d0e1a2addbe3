import DocumentApi.ListQuery
import DocumentApi.Proofs.Number.Decimal
import DocumentApi.Proofs.Paging.Address

/-!
The query of an address of a page. Where nothing else is written under the page than its size and
number, the page is found by the values of these two, however they are ordered; a link then asks for
the same list, at the size that the page had after clamping. Main statement: `parse_atPage`.
-/

set_option autoImplicit false

namespace DocumentApi

def stringPairs (params : List Url.Param) : DeepObject.Pairs :=
  params.map fun p => (p.1, .string p.2)

namespace DeepObject

/-- What the texts given for one name make. -/
def gathered : List String → Option Value
  | [] => none
  | [s] => some (.string s)
  | texts => some (.list (texts.map .string))

def IsTexts (v : Value) : Prop := (∃ s, v = .string s) ∨ ∃ texts : List String, v = .list (texts.map .string)

theorem toLists_of_isTexts {v : Value} (h : IsTexts v) : toLists v = .ok v := by
  rcases h with ⟨s, rfl⟩ | ⟨texts, rfl⟩
  · rfl
  · have hitems : itemsToLists (texts.map .string) = .ok (texts.map .string) := by
      apply itemsToLists_eq_self
      intro v hv
      obtain ⟨s, -, rfl⟩ := List.mem_map.mp hv
      rfl
    rw [toLists, hitems]
    rfl

theorem fieldsToLists_of_isTexts {fields : Record Value} (h : ∀ field ∈ fields, IsTexts field.2) :
    fieldsToLists fields = .ok fields := by
  induction fields with
  | nil => rfl
  | cons field rest ih =>
    obtain ⟨name, v⟩ := field
    have hv := toLists_of_isTexts (h (name, v) List.mem_cons_self)
    rw [fieldsToLists, hv, ih fun f hf => h f (List.mem_cons_of_mem _ hf)]
    rfl

/-- A text more for a name is gathered with those before it. -/
theorem get?_add_self {node : Record Value} {name : String} {texts : List String}
    (h : node.get? name = gathered texts) (s : String) :
    (add node name (.string s) false).get? name = gathered (texts ++ [s]) := by
  match texts, h with
  | [], h => simp [add, h, gathered, Record.get?_set_self]
  | [t], h => simp [add, h, gathered, Record.get?_set_self]
  | t :: u :: rest, h => simp [add, h, gathered, Record.get?_set_self]

theorem get?_add_of_ne {name other : String} (h : other ≠ name) (node : Record Value) (v : Value)
    (asList : Bool) : (add node name v asList).get? other = node.get? other := by
  unfold add
  split <;> exact Record.get?_set_of_ne h node _

/-- What has been read of a page: texts for its size and its number, and nothing else. -/
structure PageNode (node : Record Value) (sizes numbers : List String) : Prop where
  size : node.get? "size" = gathered sizes
  number : node.get? "number" = gathered numbers
  names : ∀ field ∈ node, field.1 = "size" ∨ field.1 = "number"
  texts : ∀ field ∈ node, IsTexts field.2

theorem PageNode.mem_add {node : Record Value} {sizes numbers : List String}
    (h : PageNode node sizes numbers) {name : String} (hname : name = "size" ∨ name = "number")
    (s : String) : ∀ field ∈ add node name (.string s) false,
      (field.1 = "size" ∨ field.1 = "number") ∧ IsTexts field.2 := by
  have hset : ∀ v, IsTexts v → ∀ field ∈ node.set name v,
      (field.1 = "size" ∨ field.1 = "number") ∧ IsTexts field.2 := by
    intro v hv field hf
    rcases Record.mem_set hf with rfl | hold
    · exact ⟨hname, hv⟩
    · exact ⟨h.names field hold, h.texts field hold⟩
  unfold add
  split
  · exact hset _ (Or.inl ⟨s, rfl⟩)
  · rename_i items hget
    refine hset _ (Or.inr ?_)
    rcases h.texts _ (Record.mem_of_get? hget) with ⟨t, ht⟩ | ⟨texts, ht⟩
    · cases ht
    · cases ht
      exact ⟨texts ++ [s], by simp⟩
  · rename_i old hnot hget
    refine hset _ (Or.inr ?_)
    rcases h.texts _ (Record.mem_of_get? hget) with ⟨t, rfl⟩ | ⟨texts, ht⟩
    · exact ⟨[t, s], rfl⟩
    · exact absurd ht (hnot _)

theorem PageNode.add_size {node : Record Value} {sizes numbers : List String}
    (h : PageNode node sizes numbers) (s : String) :
    PageNode (add node "size" (.string s) false) (sizes ++ [s]) numbers :=
  ⟨get?_add_self h.size s, (get?_add_of_ne (by decide) node _ _).trans h.number,
    fun field hf => (h.mem_add (Or.inl rfl) s field hf).1,
    fun field hf => (h.mem_add (Or.inl rfl) s field hf).2⟩

theorem PageNode.add_number {node : Record Value} {sizes numbers : List String}
    (h : PageNode node sizes numbers) (s : String) :
    PageNode (add node "number" (.string s) false) sizes (numbers ++ [s]) :=
  ⟨(get?_add_of_ne (by decide) node _ _).trans h.size, get?_add_self h.number s,
    fun field hf => (h.mem_add (Or.inr rfl) s field hf).1,
    fun field hf => (h.mem_add (Or.inr rfl) s field hf).2⟩

def textsOf (params : List Url.Param) (name : String) : List String :=
  (RelativeUrl.valuesOf params name).map (·.2)

theorem textsOf_cons (p : Url.Param) (rest : List Url.Param) (name : String) :
    textsOf (p :: rest) name = (if p.1 = name then [p.2] else []) ++ textsOf rest name := by
  by_cases h : p.1 = name <;> simp [textsOf, RelativeUrl.valuesOf, h]

theorem step_of_afterKey?_eq_none {key name : String} (h : afterKey? key name = none)
    (found : Option (Record Value)) (v : Value) : step key found (name, v) = .ok found := by
  simp only [step, segments, h]
  rfl

theorem step_size (found : Option (Record Value)) (v : Value) :
    step "page" found (PageLinks.sizeParam, v) =
      .ok (some (add (found.getD []) "size" v false)) := by
  have hsegments : segments "page" PageLinks.sizeParam = .ok (some ["size"]) := by decide +kernel
  rw [step, hsegments]
  rfl

theorem step_number (found : Option (Record Value)) (v : Value) :
    step "page" found (PageLinks.numberParam, v) =
      .ok (some (add (found.getD []) "number" v false)) := by
  have hsegments : segments "page" PageLinks.numberParam = .ok (some ["number"]) := by
    decide +kernel
  rw [step, hsegments]
  rfl

/-- Only a size and a number are under the page. -/
def PageOnly (params : List Url.Param) : Prop :=
  ∀ p ∈ params,
    afterKey? "page" p.1 = none ∨ p.1 = PageLinks.sizeParam ∨ p.1 = PageLinks.numberParam

/-- Nothing is under the filters, and only a size and a number under the page. -/
def Pageable (params : List Url.Param) : Prop :=
  ∀ p ∈ params, afterKey? "filters" p.1 = none ∧
    (afterKey? "page" p.1 = none ∨ p.1 = PageLinks.sizeParam ∨ p.1 = PageLinks.numberParam)

instance (params : List Url.Param) : Decidable (Pageable params) :=
  inferInstanceAs (Decidable (∀ p ∈ params, afterKey? "filters" p.1 = none ∧
    (afterKey? "page" p.1 = none ∨ p.1 = PageLinks.sizeParam ∨ p.1 = PageLinks.numberParam)))

theorem Pageable.pageOnly {params : List Url.Param} (h : Pageable params) : PageOnly params :=
  fun p hp => (h p hp).2

theorem foldlM_step_page {params : List Url.Param} (h : PageOnly params)
    {found : Option (Record Value)} {sizes numbers : List String}
    (hfound : PageNode (found.getD []) sizes numbers) :
    ∃ last, (stringPairs params).foldlM (step "page") found = .ok last ∧
      PageNode (last.getD []) (sizes ++ textsOf params PageLinks.sizeParam)
        (numbers ++ textsOf params PageLinks.numberParam) := by
  induction params generalizing found sizes numbers with
  | nil => exact ⟨found, rfl, by simpa [textsOf, RelativeUrl.valuesOf] using hfound⟩
  | cons p rest ih =>
    have hrest : PageOnly rest := fun q hq => h q (List.mem_cons_of_mem p hq)
    have hne : PageLinks.sizeParam ≠ PageLinks.numberParam := by decide
    obtain ⟨name, text⟩ := p
    simp only [stringPairs, List.map_cons, List.foldlM_cons, textsOf_cons]
    by_cases hsize : name = PageLinks.sizeParam
    · subst hsize
      have hadd : PageNode ((some (add (found.getD []) "size" (.string text) false)).getD [])
          (sizes ++ [text]) numbers := hfound.add_size text
      obtain ⟨last, hlast, hnode⟩ := ih hrest hadd
      refine ⟨last, ?_, ?_⟩
      · rw [step_size]
        exact hlast
      · simpa [hne] using hnode
    · by_cases hnumber : name = PageLinks.numberParam
      · subst hnumber
        have hadd : PageNode ((some (add (found.getD []) "number" (.string text) false)).getD [])
            sizes (numbers ++ [text]) := hfound.add_number text
        obtain ⟨last, hlast, hnode⟩ := ih hrest hadd
        refine ⟨last, ?_, ?_⟩
        · rw [step_number]
          exact hlast
        · simpa [hne.symm] using hnode
      · have hout : afterKey? "page" name = none := by
          rcases h _ List.mem_cons_self with hout | hs | hn
          · exact hout
          · exact absurd hs hsize
          · exact absurd hn hnumber
        obtain ⟨last, hlast, hnode⟩ := ih hrest hfound
        refine ⟨last, ?_, ?_⟩
        · rw [step_of_afterKey?_eq_none hout]
          exact hlast
        · simpa [hsize, hnumber] using hnode

theorem byIndex_pageNode {node : Record Value} {sizes numbers : List String}
    (h : PageNode node sizes numbers) : byIndex node = .ok (.object node) := by
  have hfigures : (!node.isEmpty && node.all fun field => Text.isFigures field.1.toList) = false := by
    cases node with
    | nil => rfl
    | cons field rest =>
      have hname : Text.isFigures field.1.toList = false := by
        rcases h.names field List.mem_cons_self with hn | hn <;> rw [hn] <;> decide +kernel
      simp [hname]
  rw [byIndex, hfigures]
  rfl

/-- The page that parameters ask for, by the texts of its size and of its number. -/
theorem decode_page {params : List Url.Param} (h : PageOnly params) :
    ∃ found, decode (stringPairs params) "page" = .ok found ∧
      (found.getD []).get? "size" = gathered (textsOf params PageLinks.sizeParam) ∧
      (found.getD []).get? "number" = gathered (textsOf params PageLinks.numberParam) := by
  have hempty : PageNode (Option.getD none []) [] [] :=
    ⟨rfl, rfl, fun _ hf => absurd hf List.not_mem_nil, fun _ hf => absurd hf List.not_mem_nil⟩
  obtain ⟨last, hlast, hnode⟩ := foldlM_step_page h hempty
  rw [List.nil_append, List.nil_append] at hnode
  refine ⟨last, ?_, hnode.size, hnode.number⟩
  rw [decode, hlast]
  cases last with
  | none => rfl
  | some node =>
    have hnode : PageNode node _ _ := hnode
    have hlists : toLists (.object node) = .ok (.object node) := by
      rw [toLists, fieldsToLists_of_isTexts hnode.texts]
      exact byIndex_pageNode hnode
    rw [Answer.ok_bind]
    dsimp only
    rw [hlists]
    rfl

theorem decode_filters {params : List Url.Param} (h : Pageable params) :
    decode (stringPairs params) "filters" = .ok none := by
  have hfold : (stringPairs params).foldlM (step "filters") none = .ok none := by
    induction params with
    | nil => rfl
    | cons p rest ih =>
      rw [stringPairs, List.map_cons, List.foldlM_cons,
        step_of_afterKey?_eq_none (h p List.mem_cons_self).1]
      exact ih fun q hq => h q (List.mem_cons_of_mem p hq)
  rw [decode, hfold]
  rfl

end DeepObject

/-! Clamping. -/

theorem integerOf_gathered (texts : List String) :
    ∃ i, integerOf ((DeepObject.gathered texts).getD .null) = .ok i ∧
      ∀ n ∈ i, n < ((10 ^ Numeral.maxDigits : Nat) : Int) := by
  match texts with
  | [] => exact ⟨none, rfl, fun n hn => absurd hn (Option.not_mem_none n)⟩
  | [s] =>
    refine ⟨(Numeral.readInt s.toList).toOption, rfl, fun n hn => ?_⟩
    cases hread : Numeral.readInt s.toList with
    | error fault =>
      rw [hread] at hn
      cases hn
    | ok i =>
      rw [hread] at hn
      cases hn
      exact Numeral.readInt_lt hread
  | s :: t :: rest => exact ⟨none, rfl, fun n hn => absurd hn (Option.not_mem_none n)⟩

theorem clamp_clamp {max : Option Int} {i n : Int} (hn : 1 ≤ n)
    (h : atMost max (atLeast (some 1) i) = n) : atMost max (atLeast (some 1) n) = n := by
  cases max with
  | none =>
    simp only [atMost, atLeast, Option.elim_none, Option.elim_some] at h ⊢
    omega
  | some m =>
    simp only [atMost, atLeast, Option.elim_some] at h ⊢
    omega

/-- A size that was clamped is clamped to itself once it is written out. A size with more digits
than can be read must have been the default, which takes its place again. -/
theorem bound_toString {limits : PageLimits} {texts : List String} {size : Nat} (hsize : 1 ≤ size)
    (h : bound (some 1) ((DeepObject.gathered texts).getD .null) limits.max limits.default =
      .ok (size : Int)) :
    bound (some 1) (.string (toString size)) limits.max limits.default = .ok (size : Int) := by
  obtain ⟨i, hi, hlt⟩ := integerOf_gathered texts
  rw [bound, hi] at h
  have hclamped : atMost limits.max (atLeast (some 1) (i.getD limits.default)) = size :=
    Except.ok.inj h
  rw [bound, integerOf]
  rcases Nat.lt_or_ge size (10 ^ Numeral.maxDigits) with hread | hlong
  · rw [Numeral.readInt_toString hread]
    have hself := clamp_clamp (n := size) (by omega) hclamped
    exact congrArg Except.ok hself
  · rw [Numeral.readInt_toString_of_le hlong]
    cases i with
    | none => exact congrArg Except.ok hclamped
    | some n =>
      exfalso
      have hn := hlt n rfl
      have hpow : 1 < 10 ^ Numeral.maxDigits := Nat.one_lt_pow (by decide) (by decide)
      have hle : atMost limits.max (atLeast (some 1) n) ≤ Max.max n 1 := by
        cases limits.max with
        | none =>
          simp only [atMost, atLeast, Option.elim_none, Option.elim_some]
          omega
        | some m =>
          simp only [atMost, atLeast, Option.elim_some]
          omega
      have hclamped : atMost limits.max (atLeast (some 1) n) = size := hclamped
      omega

/-- A number within the bounds is read from its text as itself. -/
theorem bound_written {n : Nat} (hpos : 1 ≤ n) (hread : n < 10 ^ Numeral.maxDigits)
    {maximum : Option Int} (hmax : ∀ max ∈ maximum, (n : Int) ≤ max) (fallback : Int) :
    bound (some 1) (.string (toString n)) maximum fallback = .ok (n : Int) := by
  rw [bound, integerOf, Numeral.readInt_toString hread]
  have hleast : atLeast (some 1) (n : Int) = n := by
    simp only [atLeast, Option.elim_some]
    omega
  have hself : atMost maximum (atLeast (some 1) (n : Int)) = n := by
    rw [hleast]
    cases maximum with
    | none => rfl
    | some max => exact Int.min_eq_right (hmax max rfl)
  exact congrArg Except.ok hself

/-- Whatever the value stands for, the upper bound is kept. -/
theorem bound_le {minimum maximum : Option Int} {value : Value} {fallback i : Int}
    (h : bound minimum value maximum fallback = .ok i) : ∀ max ∈ maximum, i ≤ max := by
  intro max hmax
  obtain ⟨given, -, hclamped⟩ := Answer.map_eq_ok.mp h
  rw [Option.mem_def.mp hmax] at hclamped
  rw [← hclamped]
  exact Int.min_le_left _ _

namespace PageRequest

theorem size_of_ofInts {size current : Int} {page : PageRequest}
    (h : ofInts size current = .ok page) : size = page.size := by
  unfold ofInts at h
  split at h
  · cases h
  · split at h
    · cases h
    · cases h
      exact (Int.toNat_of_nonneg (by omega)).symm

theorem size_le_of_clamped {size number : Value} {limits : PageLimits} {page : PageRequest}
    (h : clamped size number limits = .ok page) : ∀ max ∈ limits.max, (page.size : Int) ≤ max := by
  obtain ⟨granted, hgranted, hrest⟩ := Answer.bind_eq_ok.mp h
  obtain ⟨current, -, hmade⟩ := Answer.bind_eq_ok.mp hrest
  intro max hmax
  rw [← size_of_ofInts hmade]
  exact bound_le hgranted max hmax

theorem ofInts_natCast {size number : Nat} (hs : 1 ≤ size) (hn : 1 ≤ number) :
    ofInts size number = .ok ⟨size, number, hs, hn⟩ := by
  rw [ofInts, dif_neg (by omega), dif_neg (by omega)]
  rfl

end PageRequest

/-! Queries. -/

theorem last?_stringPairs (params : List Url.Param) (name : String) :
    FilterForm.last? (stringPairs params) name =
      (RelativeUrl.valuesOf params name).getLast?.map fun p => .string p.2 := by
  have hfind : (stringPairs params).reverse.find? (fun pair => decide (pair.1 = name)) =
      (RelativeUrl.valuesOf params name).getLast?.map fun p => (p.1, .string p.2) := by
    rw [← List.head?_filter, List.filter_reverse, List.head?_reverse, stringPairs, List.filter_map,
      List.getLast?_map]
    rfl
  rw [FilterForm.last?, hfind, Option.map_map]
  rfl

namespace QuerySettings

def limited (limits : PageLimits) : QuerySettings := { standard with limits }

theorem page_eq {s : QuerySettings} (hkey : s.pageKey = "page") {params : List Url.Param}
    (h : DeepObject.PageOnly params) :
    s.page (stringPairs params) =
      PageRequest.clamped
        ((DeepObject.gathered (DeepObject.textsOf params PageLinks.sizeParam)).getD .null)
        ((DeepObject.gathered (DeepObject.textsOf params PageLinks.numberParam)).getD .null)
        s.limits := by
  obtain ⟨found, hdecode, hsize, hnumber⟩ := DeepObject.decode_page h
  rw [page, hkey, hdecode, Answer.ok_bind]
  dsimp only
  rw [hsize, hnumber]

theorem parse_eq (limits : PageLimits) {params : List Url.Param} (h : DeepObject.Pageable params) :
    (limited limits).parse (stringPairs params) = do
      return ⟨none, listOf (stringPairs params) "fields", listOf (stringPairs params) "sort",
        ← (limited limits).page (stringPairs params)⟩ := by
  have hfilters : (limited limits).form.extract (stringPairs params) (limited limits).filtersKey =
      .ok none := by
    have hform : (limited limits).form = .deepObject false := rfl
    have hkey : (limited limits).filtersKey = "filters" := rfl
    rw [hform, FilterForm.extract, hkey, DeepObject.decode_filters h]
    rfl
  rw [parse, hfilters, Answer.ok_bind]
  rfl

theorem listOf_congr {params others : List Url.Param} {name : String}
    (h : RelativeUrl.valuesOf params name = RelativeUrl.valuesOf others name) :
    listOf (stringPairs params) name = listOf (stringPairs others) name := by
  rw [listOf, listOf, last?_stringPairs, last?_stringPairs, h]

end QuerySettings

theorem AtPage.mem_params {origin u : RelativeUrl} {size number : Nat} (h : AtPage origin u size number)
    {p : Url.Param} (hp : p ∈ u.params) :
    p.1 = PageLinks.sizeParam ∨ p.1 = PageLinks.numberParam ∨ p ∈ origin.params := by
  by_cases hsize : p.1 = PageLinks.sizeParam
  · exact Or.inl hsize
  · by_cases hnumber : p.1 = PageLinks.numberParam
    · exact Or.inr (Or.inl hnumber)
    · have hvalue : p ∈ RelativeUrl.valuesOf u.params p.1 := List.mem_filter.mpr ⟨hp, by simp⟩
      rw [h.others p.1 hsize hnumber] at hvalue
      exact Or.inr (Or.inr (List.mem_filter.mp hvalue).1)

theorem AtPage.pageable {origin u : RelativeUrl} {size number : Nat}
    (h : AtPage origin u size number) (horigin : DeepObject.Pageable origin.params) :
    DeepObject.Pageable u.params := by
  intro p hp
  rcases h.mem_params hp with hs | hn | hold
  · exact ⟨by rw [hs]; decide +kernel, Or.inr (Or.inl hs)⟩
  · exact ⟨by rw [hn]; decide +kernel, Or.inr (Or.inr hn)⟩
  · exact horigin p hold

theorem textsOf_of_valuesOf {params : List Url.Param} {name text : String}
    (h : RelativeUrl.valuesOf params name = [(name, text)]) :
    DeepObject.textsOf params name = [text] := by
  rw [DeepObject.textsOf, h]
  rfl

/-- An address of a page asks for the same list as the address that it was made from, at the size
that was granted there. -/
theorem parse_atPage {limits : PageLimits} {origin u : RelativeUrl} {query : ListQuery}
    {page : PageRequest} (horigin : DeepObject.Pageable origin.params)
    (hquery : (QuerySettings.limited limits).parse (stringPairs origin.params) = .ok query)
    (hsame : page.size = query.page.size) (h : AtPage origin u page.size page.current)
    (hread : page.current < 10 ^ Numeral.maxDigits) :
    (QuerySettings.limited limits).parse (stringPairs u.params) = .ok { query with page } := by
  have hkey : (QuerySettings.limited limits).pageKey = "page" := rfl
  rw [QuerySettings.parse_eq limits horigin, QuerySettings.page_eq hkey horigin.pageOnly] at hquery
  obtain ⟨granted, hgranted, hparsed⟩ := Answer.bind_eq_ok.mp hquery
  cases hparsed
  obtain ⟨size, hsize, hrest⟩ := Answer.bind_eq_ok.mp hgranted
  obtain ⟨current, -, hmade⟩ := Answer.bind_eq_ok.mp hrest
  rw [QuerySettings.parse_eq limits (h.pageable horigin),
    QuerySettings.page_eq hkey (h.pageable horigin).pageOnly, textsOf_of_valuesOf h.size,
    textsOf_of_valuesOf h.number,
    QuerySettings.listOf_congr (h.others "fields" (by decide) (by decide)),
    QuerySettings.listOf_congr (h.others "sort" (by decide) (by decide))]
  have hbound : size = page.size := (PageRequest.size_of_ofInts hmade).trans (by rw [hsame])
  have hagain := bound_toString page.size_pos (hbound ▸ hsize)
  have hnone : ∀ max ∈ (none : Option Int), (page.current : Int) ≤ max := by simp
  have hnumber := bound_written page.current_pos hread hnone 1
  simp only [PageRequest.clamped, DeepObject.gathered, Option.getD_some]
  rw [hagain, Answer.ok_bind, hnumber, Answer.ok_bind,
    PageRequest.ofInts_natCast page.size_pos page.current_pos]
  rfl

end DocumentApi
