import DocumentApi.Proofs.Paging.Address

/-!
The text of an address is canonical: it is read back with the parameters in a stable order by name,
and two addresses have one text exactly if they agree in path and fragment and give each name the
same values in the same order. Main statement: `text_canonical`.
-/

set_option autoImplicit false

namespace DocumentApi.RelativeUrl

open Url

/-- The values given under a name, in order. -/
def values (params : List Param) (name : String) : List String := (valuesOf params name).map (·.2)

/-- A stable sort by name: the same parameters, the names ascending, the values of each name in
their order. -/
structure SortedByName (params sorted : List Param) : Prop where
  perm : sorted.Perm params
  ascending : sorted.Pairwise fun p q => p.1 ≤ q.1
  stable : ∀ name, values sorted name = values params name

theorem valuesOf_eq_map_values (params : List Param) (name : String) :
    valuesOf params name = (values params name).map fun value => (name, value) := by
  rw [values, List.map_map]
  refine (List.map_id _).symm.trans (List.map_congr_left fun p hp => ?_)
  have hname : p.1 = name := of_decide_eq_true (List.mem_filter.mp hp).2
  simp [← hname]

theorem valuesOf_congr {params others : List Param} {name : String}
    (h : values params name = values others name) : valuesOf params name = valuesOf others name := by
  rw [valuesOf_eq_map_values, valuesOf_eq_map_values, h]

theorem pairwise_sortParams (params : List Param) :
    (sortParams params).Pairwise fun p q => p.1 ≤ q.1 := by
  have hsorted := pairwise_sortBy (fun a b : String => decide (a ≤ b)) Prod.fst
    (fun i j => by simpa using String.le_total i j)
    (fun hij hjk => by simpa using String.le_trans (of_decide_eq_true hij) (of_decide_eq_true hjk))
    params
  exact hsorted.imp fun h => of_decide_eq_true h

theorem values_sortParams (params : List Param) (name : String) :
    values (sortParams params) name = values params name :=
  congrArg (List.map Prod.snd) (valuesOf_sortParams params name)

theorem sortedByName_sortParams (params : List Param) : SortedByName params (sortParams params) :=
  ⟨sortBy_perm _ _ params, pairwise_sortParams params, values_sortParams params⟩

/-- There is one stable sort of the parameters with given values. -/
theorem SortedByName.unique {params others sorted sorted' : List Param}
    (h : SortedByName params sorted) (h' : SortedByName others sorted')
    (heq : ∀ name, values params name = values others name) : sorted = sorted' := by
  refine eq_of_pairwise_of_filter_key (fun a b : String => decide (a ≤ b)) Prod.fst
    (fun hij hji => ?_) (h.ascending.imp decide_eq_true) (h'.ascending.imp decide_eq_true) ?_
  · exact String.le_antisymm (of_decide_eq_true hij) (of_decide_eq_true hji)
  · intro name
    exact valuesOf_congr ((h.stable name).trans ((heq name).trans (h'.stable name).symm))

theorem text_congr {u v : RelativeUrl} (hpath : u.path = v.path) (hfragment : u.fragment = v.fragment)
    (hsorted : sortParams u.params = sortParams v.params) : u.text = v.text := by
  have hempty : u.params.isEmpty = v.params.isEmpty := by
    rw [← (sortBy_perm _ _ u.params).isEmpty_eq, ← (sortBy_perm _ _ v.params).isEmpty_eq]
    exact congrArg List.isEmpty hsorted
  simp only [text, queryText, fragmentText, writeQuery, hpath, hfragment, hsorted, hempty]

/-- An address is read back from its text with its parameters in a stable order by name, and its
text is that of another address exactly if path, fragment and the values of every name agree. -/
theorem text_canonical {u : RelativeUrl} (hu : Writable u) :
    (∃ sorted, SortedByName u.params sorted ∧ ofText u.text = .ok ⟨u.path, sorted, u.fragment⟩) ∧
    ∀ v, Writable v → (u.text = v.text ↔
      u.path = v.path ∧ u.fragment = v.fragment ∧
        ∀ name, values u.params name = values v.params name) := by
  refine ⟨⟨_, sortedByName_sortParams u.params, ofText_text hu⟩, fun v hv => ⟨fun htext => ?_, ?_⟩⟩
  · have hread : ofText u.text = ofText v.text := by rw [htext]
    rw [ofText_text hu, ofText_text hv] at hread
    simp only [Except.ok.injEq, mk.injEq] at hread
    obtain ⟨hpath, hsorted, hfragment⟩ := hread
    refine ⟨hpath, hfragment, fun name => ?_⟩
    rw [← values_sortParams u.params, hsorted, values_sortParams v.params]
  · rintro ⟨hpath, hfragment, hvalues⟩
    exact text_congr hpath hfragment
      ((sortedByName_sortParams u.params).unique (sortedByName_sortParams v.params) hvalues)

/-- Two values of one name around others, an empty name, and characters that must be escaped. -/
def scattered : RelativeUrl :=
  ⟨"/a b//c:d", [("~é", "&"), ("a", "2"), ("", ""), ("~é", "+ %=#"), ("a", "1")], "x#y?"⟩

example : (ofText scattered.text).toOption = some ⟨"/a b//c:d",
    [("", ""), ("a", "2"), ("a", "1"), ("~é", "&"), ("~é", "+ %=#")], "x#y?"⟩ := by
  decide +kernel

def rearranged : RelativeUrl :=
  ⟨"/a b//c:d", [("a", "2"), ("~é", "&"), ("a", "1"), ("~é", "+ %=#"), ("", "")], "x#y?"⟩

theorem text_canonical_scattered :
    Writable scattered ∧ Writable rearranged ∧
    (∃ sorted, SortedByName scattered.params sorted ∧
      ofText scattered.text = .ok ⟨scattered.path, sorted, scattered.fragment⟩) ∧
    scattered.text = rearranged.text ∧
    ∀ name, values scattered.params name = values rearranged.params name := by
  have hs : Writable scattered :=
    ⟨by decide +kernel, by decide +kernel, by simp [scattered], by simp [scattered]⟩
  have hr : Writable rearranged :=
    ⟨by decide +kernel, by decide +kernel, by simp [rearranged], by simp [rearranged]⟩
  obtain ⟨hread, hsame⟩ := text_canonical hs
  have htext : scattered.text = rearranged.text := by decide +kernel
  exact ⟨hs, hr, hread, htext, ((hsame rearranged hr).mp htext).2.2⟩

end DocumentApi.RelativeUrl
