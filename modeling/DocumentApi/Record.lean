/-!
Records: fields by name in the order in which they were first set. Setting a field again keeps its
place. Main statements: what a look-up finds after each operation, that names stay distinct, what is
left without a field, and that fields of distinct names stay as they are.
-/

set_option autoImplicit false

namespace DocumentApi

universe u

abbrev Record (α : Type u) := List (String × α)

namespace Record

variable {α : Type u}

def get? (r : Record α) (name : String) : Option α :=
  match r with
  | [] => none
  | (key, value) :: rest => if key = name then some value else get? rest name

def contains (r : Record α) (name : String) : Bool := (r.get? name).isSome

def names (r : Record α) : List String := r.map (·.1)

def values (r : Record α) : List α := r.map (·.2)

/-- Replaces the field in its place, or adds it after the others. -/
def set (r : Record α) (name : String) (value : α) : Record α :=
  match r with
  | [] => [(name, value)]
  | (key, old) :: rest =>
    if key = name then (key, value) :: rest else (key, old) :: set rest name value

def erase (r : Record α) (name : String) : Record α := r.filter fun field => field.1 ≠ name

def merge (r s : Record α) : Record α := s.foldl (fun r field => r.set field.1 field.2) r

/-- A name keeps its first place and its last value. -/
def ofList (fields : List (String × α)) : Record α := merge [] fields

def Distinct (r : Record α) : Prop := r.names.Nodup

@[simp] theorem get?_nil (name : String) : get? ([] : Record α) name = none := rfl

theorem get?_set_self (r : Record α) (name : String) (value : α) :
    (r.set name value).get? name = some value := by
  induction r with
  | nil => simp [set, get?]
  | cons field rest ih =>
    by_cases h : field.1 = name <;> simp [set, get?, h, ih]

theorem get?_set_of_ne {name other : String} (h : other ≠ name) (r : Record α) (value : α) :
    (r.set name value).get? other = r.get? other := by
  induction r with
  | nil => simp [set, get?, h.symm]
  | cons field rest ih =>
    by_cases hk : field.1 = name
    · simp [set, get?, hk, h.symm]
    · by_cases ho : field.1 = other
      · simp [set, get?, ho, h]
      · simp [set, get?, hk, ho, ih]

theorem set_set_self (r : Record α) (name : String) (old value : α) :
    (r.set name old).set name value = r.set name value := by
  induction r with
  | nil => simp [set]
  | cons field rest ih =>
    by_cases h : field.1 = name <;> simp [set, h, ih]

theorem mem_set {r : Record α} {name : String} {value : α} {field : String × α}
    (h : field ∈ r.set name value) : field = (name, value) ∨ field ∈ r := by
  induction r with
  | nil => exact Or.inl (List.mem_singleton.mp h)
  | cons old rest ih =>
    by_cases hk : old.1 = name
    · simp only [set, hk, if_true, List.mem_cons] at h
      exact h.imp_right (List.mem_cons_of_mem old)
    · simp only [set, hk, if_false, List.mem_cons] at h
      rcases h with rfl | hr
      · exact Or.inr List.mem_cons_self
      · exact (ih hr).imp_right (List.mem_cons_of_mem old)

theorem mem_of_get? {r : Record α} {name : String} {value : α} (h : r.get? name = some value) :
    (name, value) ∈ r := by
  induction r with
  | nil => cases h
  | cons field rest ih =>
    obtain ⟨key, found⟩ := field
    by_cases hk : key = name
    · simp only [get?, hk, if_true, Option.some.injEq] at h
      simp [hk, h]
    · simp only [get?, hk, if_false] at h
      exact List.mem_cons_of_mem _ (ih h)

theorem Distinct.get?_of_mem {r : Record α} (h : r.Distinct) {field : String × α}
    (hf : field ∈ r) : r.get? field.1 = some field.2 := by
  induction r with
  | nil => cases hf
  | cons first rest ih =>
    simp only [Distinct, names, List.map_cons, List.nodup_cons] at h
    rcases List.mem_cons.mp hf with rfl | hmem
    · simp [get?]
    · have hne : first.1 ≠ field.1 := fun he => h.1 (he ▸ List.mem_map_of_mem hmem)
      simp [get?, hne, ih h.2 hmem]

theorem mem_names_set {r : Record α} {name other : String} {value : α} :
    other ∈ (r.set name value).names ↔ other = name ∨ other ∈ r.names := by
  induction r with
  | nil => simp [set, names]
  | cons field rest ih =>
    by_cases h : field.1 = name
    · simp [set, names, h]
    · simp only [names, List.mem_map] at ih ⊢
      simp only [set, h, if_false, List.mem_cons]
      grind

theorem Distinct.set {r : Record α} (h : r.Distinct) (name : String) (value : α) :
    (r.set name value).Distinct := by
  induction r with
  | nil => simp [Record.set, Distinct, names]
  | cons field rest ih =>
    simp only [Distinct, names, List.map_cons, List.nodup_cons] at h
    by_cases hk : field.1 = name
    · simpa only [Record.set, Distinct, names, hk, if_true, List.map_cons, List.nodup_cons]
        using hk ▸ h
    · have hd := ih h.2
      simp only [Record.set, hk, if_false, Distinct, names, List.map_cons, List.nodup_cons]
      refine ⟨fun hm => ?_, hd⟩
      rcases mem_names_set.mp hm with he | hr
      · exact hk he
      · exact h.1 hr

theorem Distinct.merge {r : Record α} (h : r.Distinct) (s : Record α) : (r.merge s).Distinct := by
  induction s generalizing r with
  | nil => exact h
  | cons field rest ih => exact ih (h.set field.1 field.2)

theorem distinct_ofList (fields : List (String × α)) : (ofList fields).Distinct :=
  Distinct.merge (by simp [Distinct, names]) fields

theorem set_of_not_mem_names {r : Record α} {name : String} (h : name ∉ r.names) (value : α) :
    r.set name value = r ++ [(name, value)] := by
  induction r with
  | nil => rfl
  | cons field rest ih =>
    simp only [names, List.map_cons, List.mem_cons, not_or] at h
    have hk : field.1 ≠ name := fun he => h.1 he.symm
    simp [set, hk, ih h.2]

theorem set_append_of_not_mem {r : Record α} {name : String} (h : name ∉ r.names) (s : Record α)
    (value : α) : (r ++ s).set name value = r ++ s.set name value := by
  induction r with
  | nil => rfl
  | cons field rest ih =>
    simp only [names, List.map_cons, List.mem_cons, not_or] at h
    have hk : field.1 ≠ name := fun he => h.1 he.symm
    simp [set, hk, ih h.2]

theorem merge_cons (r : Record α) (field : String × α) (rest : Record α) :
    merge r (field :: rest) = merge (r.set field.1 field.2) rest := rfl

theorem merge_append (r s t : Record α) : r.merge (s ++ t) = (r.merge s).merge t :=
  List.foldl_append

theorem merge_of_distinct {r s : Record α} (h : Distinct (r ++ s)) : r.merge s = r ++ s := by
  induction s generalizing r with
  | nil => simp [merge]
  | cons field rest ih =>
    have hm : field.1 ∉ r.names := by
      simp only [Distinct, names, List.map_append, List.map_cons] at h
      have hd := (List.nodup_append.mp h).2.2
      exact fun hmem => hd _ hmem _ List.mem_cons_self rfl
    rw [merge_cons, set_of_not_mem_names hm, ih (by simpa using h)]
    simp

theorem get?_merge_of_not_mem {s : Record α} {name : String} (h : name ∉ s.names)
    (r : Record α) : (r.merge s).get? name = r.get? name := by
  induction s generalizing r with
  | nil => rfl
  | cons field rest ih =>
    simp only [names, List.map_cons, List.mem_cons, not_or] at h
    rw [merge_cons, ih h.2, get?_set_of_ne h.1]

theorem mem_names_merge {r s : Record α} {name : String} :
    name ∈ (r.merge s).names ↔ name ∈ r.names ∨ name ∈ s.names := by
  induction s generalizing r with
  | nil => simp [merge, names]
  | cons field rest ih =>
    have hn : name ∈ names (field :: rest) ↔ name = field.1 ∨ name ∈ names rest := by
      simp [names]
    rw [merge_cons, ih, mem_names_set, hn, or_comm (a := name = field.1), or_assoc]

theorem mem_names_ofList {fields : List (String × α)} {name : String} :
    name ∈ (ofList fields).names ↔ name ∈ names fields := by
  rw [ofList, mem_names_merge]
  exact or_iff_right List.not_mem_nil

theorem mem_of_mem_merge {r s : Record α} {field : String × α} (h : field ∈ r.merge s) :
    field ∈ r ∨ field ∈ s := by
  induction s generalizing r with
  | nil => exact Or.inl h
  | cons first rest ih =>
    rcases ih h with hset | hrest
    · rcases mem_set hset with rfl | hr
      · exact Or.inr List.mem_cons_self
      · exact Or.inl hr
    · exact Or.inr (List.mem_cons_of_mem first hrest)

theorem mem_of_mem_ofList {fields : List (String × α)} {field : String × α}
    (h : field ∈ ofList fields) : field ∈ fields :=
  (mem_of_mem_merge h).resolve_left List.not_mem_nil

theorem not_mem_names_erase (r : Record α) (name : String) : name ∉ (r.erase name).names := by
  simp [names, erase]

theorem get?_eq_none_iff {r : Record α} {name : String} : r.get? name = none ↔ name ∉ r.names := by
  induction r with
  | nil => simp [names]
  | cons field rest ih =>
    by_cases h : field.1 = name
    · simp [get?, names, h]
    · have hn : name ∉ names (field :: rest) ↔ name ∉ names rest := by
        simp [names, Ne.symm h]
      rw [hn, ← ih]
      simp [get?, h]

theorem get?_append_of_not_mem {r : Record α} {name : String} (h : name ∉ r.names)
    (s : Record α) : (r ++ s).get? name = s.get? name := by
  induction r with
  | nil => rfl
  | cons field rest ih =>
    simp only [names, List.map_cons, List.mem_cons, not_or] at h
    have hk : field.1 ≠ name := fun he => h.1 he.symm
    simp [get?, hk, ih h.2]

/-! A record without one of its fields. -/

theorem erase_of_not_mem_names {r : Record α} {name : String} (h : name ∉ r.names) :
    r.erase name = r := by
  apply List.filter_eq_self.mpr
  intro field hf
  have hne : field.1 ≠ name := fun he => h (List.mem_map.mpr ⟨field, hf, he⟩)
  simpa using hne

theorem erase_cons (field : String × α) (rest : Record α) (name : String) :
    erase (field :: rest) name =
      if field.1 = name then erase rest name else field :: erase rest name := by
  by_cases h : field.1 = name <;> simp [erase, h]

theorem erase_append (r s : Record α) (name : String) :
    (r ++ s).erase name = r.erase name ++ s.erase name := List.filter_append r s

theorem get?_erase_of_ne {name other : String} (h : other ≠ name) (r : Record α) :
    (r.erase name).get? other = r.get? other := by
  induction r with
  | nil => rfl
  | cons field rest ih =>
    by_cases hk : field.1 = name
    · simp [erase_cons, get?, hk, h.symm, ih]
    · simp [erase_cons, get?, hk, ih]

theorem erase_set_self (r : Record α) (name : String) (value : α) :
    (r.set name value).erase name = r.erase name := by
  induction r with
  | nil => simp [set, erase]
  | cons field rest ih =>
    by_cases hk : field.1 = name
    · simp [set, erase_cons, hk]
    · simp [set, erase_cons, hk, ih]

theorem erase_set_of_ne {name other : String} (h : other ≠ name) (r : Record α) (value : α) :
    (r.set other value).erase name = (r.erase name).set other value := by
  induction r with
  | nil => simp [set, erase, h]
  | cons field rest ih =>
    by_cases ho : field.1 = other
    · simp [set, erase_cons, ho, h]
    · by_cases hk : field.1 = name
      · simp [set, erase_cons, hk, h.symm, ih]
      · simp [set, erase_cons, ho, hk, ih]

theorem erase_merge_of_not_mem {s : Record α} {name : String} (h : name ∉ s.names)
    (r : Record α) : (r.merge s).erase name = (r.erase name).merge s := by
  induction s generalizing r with
  | nil => rfl
  | cons field rest ih =>
    simp only [names, List.map_cons, List.mem_cons, not_or] at h
    rw [merge_cons, merge_cons, ih h.2, erase_set_of_ne (Ne.symm h.1)]

/-- Setting fields to the values that they have changes nothing. -/
theorem set_of_get? {r : Record α} {name : String} {value : α} (h : r.get? name = some value) :
    r.set name value = r := by
  induction r with
  | nil => cases h
  | cons field rest ih =>
    obtain ⟨key, old⟩ := field
    by_cases hk : key = name
    · simp only [get?, hk, if_true, Option.some.injEq] at h
      simp [set, hk, h]
    · simp only [get?, hk, if_false] at h
      simp [set, hk, ih h]

theorem merge_of_get? {r s : Record α} (h : ∀ field ∈ s, r.get? field.1 = some field.2) :
    r.merge s = r := by
  induction s with
  | nil => rfl
  | cons field rest ih =>
    rw [merge_cons, set_of_get? (h field List.mem_cons_self)]
    exact ih fun f hf => h f (List.mem_cons_of_mem field hf)

/-- Fields of distinct names make a record as they are. -/
theorem ofList_of_distinct {fields : Record α} (h : fields.Distinct) : ofList fields = fields :=
  merge_of_distinct (r := []) h

end Record

end DocumentApi
