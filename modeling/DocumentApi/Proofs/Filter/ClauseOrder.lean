import DocumentApi.Proofs.Filter.Translation
import Mathlib.Data.List.Nodup

/-!
The order of the clauses that the conditions of a field become. Clauses that are not merged keep
their order; the patterns that must all match come after them, and the excluded values last. Main
statement: `ofConditions_ordered`.
-/

set_option autoImplicit false

universe u

namespace DocumentApi

namespace Record

variable {α : Type u} {name : String}

theorem names_append (r s : Record α) : names (r ++ s) = r.names ++ s.names := List.map_append

theorem distinct_append_cons {before after : Record α} {field : String × α} :
    Distinct (before ++ field :: after) ↔
      field.1 ∉ names (before ++ after) ∧ Distinct (before ++ after) := by
  simp only [Distinct, names, List.map_append, List.map_cons, List.nodup_middle, List.nodup_cons]

theorem Distinct.not_mem_names {before after : Record α} {field : String × α}
    (h : Distinct (before ++ field :: after)) : field.1 ∉ before.names :=
  fun hm => (distinct_append_cons.mp h).1 (names_append before after ▸ List.mem_append_left _ hm)

theorem set_append_cons {before : Record α} (h : name ∉ before.names) (old value : α)
    (after : Record α) :
    set (before ++ (name, old) :: after) name value = before ++ (name, value) :: after := by
  induction before with
  | nil => simp [set]
  | cons field rest ih =>
    simp only [names, List.map_cons, List.mem_cons, not_or] at h
    have hk : field.1 ≠ name := fun he => h.1 he.symm
    simp [set, hk, ih h.2]

end Record

namespace StoreQuery

open Record

section Joining
variable {name : String}

/-- The clauses, with those of one name joined at the place of the first with the value of the
last. -/
def joined (name : String) : List Clause → List Clause
  | [] => []
  | (key, value) :: rest =>
    if key = name then (name, (valuesOf name rest).getLastD value) :: erase rest name
    else (key, value) :: joined name rest

theorem valuesOf_cons_self (value : Value) (rest : List Clause) :
    valuesOf name ((name, value) :: rest) = value :: valuesOf name rest := by
  simp [valuesOf]

theorem valuesOf_cons_of_ne {key : String} (h : key ≠ name) (value : Value) (rest : List Clause) :
    valuesOf name ((key, value) :: rest) = valuesOf name rest := by
  simp [valuesOf, h]

theorem erase_append (name : String) (clauses others : List Clause) :
    erase (clauses ++ others) name = erase clauses name ++ erase others name := by
  simp [erase]

theorem valuesOf_append (name : String) (clauses others : List Clause) :
    valuesOf name (clauses ++ others) = valuesOf name clauses ++ valuesOf name others := by
  simp [valuesOf]

theorem valuesOf_eq_nil_iff {clauses : List Clause} :
    valuesOf name clauses = [] ↔ name ∉ names clauses := by
  rw [← List.length_eq_zero_iff, length_valuesOf, List.count_eq_zero]

/-- Clauses that are added to others, one of which has a name that some of them have too. -/
theorem merge_repeated {before rest : List Clause} (after : List Clause) {value : Value}
    (h : Distinct (before ++ (name, value) :: (after ++ erase rest name))) :
    merge (before ++ (name, value) :: after) rest =
      before ++ (name, (valuesOf name rest).getLastD value) :: (after ++ erase rest name) := by
  induction rest generalizing value after with
  | nil => simp [merge, valuesOf, erase]
  | cons clause rest ih =>
    obtain ⟨key, next⟩ := clause
    rw [merge_cons]
    by_cases hk : key = name
    · subst hk
      rw [erase_cons, if_pos rfl] at h ⊢
      have hothers := distinct_append_cons.mp h
      have hrest : Distinct (before ++ (key, next) :: (after ++ erase rest key)) :=
        distinct_append_cons.mpr hothers
      have hset := set_append_cons h.not_mem_names value next after
      rw [hset, ih after hrest, valuesOf_cons_self, List.getLastD_cons]
    · rw [erase_cons, if_neg hk] at h ⊢
      have hassoc : before ++ (name, value) :: (after ++ (key, next) :: erase rest name) =
          (before ++ (name, value) :: after) ++ (key, next) :: erase rest name := by simp
      have hfresh : key ∉ names (before ++ (name, value) :: after) := by
        rw [hassoc] at h
        exact h.not_mem_names
      let added := after ++ [(key, next)]
      have hrest : Distinct (before ++ (name, value) :: (added ++ erase rest name)) := by
        simpa [added] using h
      have hadd := set_of_not_mem_names hfresh next
      rw [hadd, List.append_assoc, List.cons_append, ih added hrest, valuesOf_cons_of_ne hk]
      simp [added]

theorem merge_eq_joined {r clauses : List Clause} (hname : name ∉ names r)
    (h : Distinct (r ++ erase clauses name)) : merge r clauses = r ++ joined name clauses := by
  induction clauses generalizing r with
  | nil => simp [merge, joined]
  | cons clause rest ih =>
    obtain ⟨key, value⟩ := clause
    rw [merge_cons, joined]
    by_cases hk : key = name
    · subst hk
      rw [erase_cons, if_pos rfl] at h
      have hfresh : key ∉ names (r ++ erase rest key) := by
        rw [names_append, List.mem_append, not_or]
        exact ⟨hname, not_mem_names_erase rest key⟩
      rw [set_of_not_mem_names hname, if_pos rfl]
      exact merge_repeated [] (distinct_append_cons.mpr ⟨hfresh, h⟩)
    · rw [erase_cons, if_neg hk] at h
      have hadded : name ∉ names (r ++ [(key, value)]) := by
        rw [names_append, List.mem_append, not_or]
        exact ⟨hname, by simpa [names] using Ne.symm hk⟩
      rw [set_of_not_mem_names h.not_mem_names, if_neg hk, ih hadded (by simpa using h)]
      simp

theorem joined_of_not_mem {clauses : List Clause} (h : name ∉ names clauses) :
    joined name clauses = clauses := by
  induction clauses with
  | nil => rfl
  | cons clause rest ih =>
    obtain ⟨key, value⟩ := clause
    simp only [names, List.map_cons, List.mem_cons, not_or] at h
    rw [joined, if_neg (Ne.symm h.1), ih h.2]

theorem joined_append {clauses others : List Clause} (h : name ∉ names others) :
    joined name (clauses ++ others) = joined name clauses ++ others := by
  induction clauses with
  | nil => exact joined_of_not_mem h
  | cons clause rest ih =>
    obtain ⟨key, value⟩ := clause
    rw [List.cons_append, joined, joined]
    split
    · rw [valuesOf_append, valuesOf_eq_nil_iff.mpr h, List.append_nil, erase_append,
        erase_of_not_mem_names h]
      rfl
    · rw [ih]
      rfl

/-- Clauses of which only one name stands more than once are written with that one joined. -/
theorem ofList_eq_joined {clauses : List Clause} (h : Distinct (erase clauses name)) :
    ofList clauses = joined name clauses :=
  merge_eq_joined (r := []) List.not_mem_nil h

end Joining

/-! Which clauses are merged, and into what. -/

/-- Patterns are merged if there are several; excluded values and lists of them are merged if there
are several single ones. -/
def IsMerged (clauses : List Clause) (name : String) : Prop :=
  name = "$regex" ∧ 2 ≤ (valuesOf "$regex" clauses).length ∨
    (name = "$ne" ∨ name = "$nin") ∧ 2 ≤ (valuesOf "$ne" clauses).length

instance (clauses : List Clause) (name : String) : Decidable (IsMerged clauses name) :=
  inferInstanceAs (Decidable (_ ∨ _))

def unmerged (clauses : List Clause) : List Clause :=
  clauses.filter fun c => ¬ IsMerged clauses c.1

/-- The patterns in their order. -/
def patternTexts (clauses : List Clause) : List String :=
  (valuesOf "$regex" clauses).filterMap Value.string?

def mergedPatterns (clauses : List Clause) : List Clause :=
  if 2 ≤ (valuesOf "$regex" clauses).length then
    [("$all", .list ((patternTexts clauses).map .regex))]
  else []

/-- The excluded values in their order, those of a list before the single ones. -/
def excludedValues (clauses : List Clause) : List Value :=
  (valuesOf "$nin" clauses).flatMap (fun v => (v.list?).getD []) ++ valuesOf "$ne" clauses

def mergedExcluded (clauses : List Clause) : List Clause :=
  if 2 ≤ (valuesOf "$ne" clauses).length then [("$nin", .list (excludedValues clauses))] else []

section Merging
variable {name operator into : String} {combine : List Value → Value} {clauses : List Clause}

theorem mergeClauses_of_two_le (h : 2 ≤ (valuesOf operator clauses).length) :
    mergeClauses operator into combine clauses =
      erase clauses operator ++ [(into, combine (valuesOf operator clauses))] := by
  rw [mergeClauses_eq, if_neg (by omega)]
  rfl

theorem valuesOf_erase (h : name ≠ operator) (clauses : List Clause) :
    valuesOf name (erase clauses operator) = valuesOf name clauses := by
  rw [valuesOf, valuesOf, erase, List.filter_filter]
  refine congrArg _ (List.filter_congr fun c _ => ?_)
  by_cases hc : c.1 = name
  · simp [hc, h]
  · simp [hc]

theorem valuesOf_mergeClauses (hname : name ≠ operator) (hinto : name ≠ into) :
    valuesOf name (mergeClauses operator into combine clauses) = valuesOf name clauses := by
  by_cases h : (valuesOf operator clauses).length ≤ 1
  · exact congrArg _ (mergeClauses_of_length_le h)
  · rw [mergeClauses_of_two_le (by omega), valuesOf_append, valuesOf_erase hname]
    simp [valuesOf, hinto.symm]

theorem patterns_valuesOf (h : ∀ c ∈ clauses, Translated c) :
    patterns (valuesOf "$regex" clauses) = .list ((patternTexts clauses).map .regex) := by
  have htexts : ∀ v ∈ valuesOf "$regex" clauses, v.string? = some v.text := by
    intro v hv
    obtain ⟨p, hp⟩ := (h _ (mem_valuesOf.mp hv)).pattern rfl
    cases hp
    rfl
  rw [patterns, patternTexts, List.filterMap_congr htexts]
  simp

/-- The clauses without patterns that are merged. -/
def besidePatterns (clauses : List Clause) : List Clause :=
  if 2 ≤ (valuesOf "$regex" clauses).length then erase clauses "$regex" else clauses

theorem mergePatterns_eq (h : ∀ c ∈ clauses, Translated c) :
    mergeClauses "$regex" "$all" patterns clauses =
      besidePatterns clauses ++ mergedPatterns clauses := by
  rw [besidePatterns, mergedPatterns]
  split
  · rename_i hseveral
    rw [mergeClauses_of_two_le hseveral, patterns_valuesOf h]
  · rw [List.append_nil]
    exact mergeClauses_of_length_le (by rw [← valuesOf]; omega)

theorem unmerged_eq (clauses : List Clause) :
    unmerged clauses =
      if 2 ≤ (valuesOf "$ne" clauses).length then
        erase (erase (besidePatterns clauses) "$ne") "$nin"
      else besidePatterns clauses := by
  by_cases hp : 2 ≤ (valuesOf "$regex" clauses).length
  · by_cases he : 2 ≤ (valuesOf "$ne" clauses).length
    · rw [besidePatterns, if_pos hp, if_pos he, erase, erase, erase, List.filter_filter,
        List.filter_filter]
      exact List.filter_congr fun c _ => by grind [IsMerged]
    · rw [besidePatterns, if_pos hp, if_neg he]
      exact List.filter_congr fun c _ => by simp [IsMerged, hp, he]
  · by_cases he : 2 ≤ (valuesOf "$ne" clauses).length
    · rw [besidePatterns, if_neg hp, if_pos he, erase, erase, List.filter_filter]
      exact List.filter_congr fun c _ => by grind [IsMerged]
    · rw [besidePatterns, if_neg hp, if_neg he]
      exact List.filter_eq_self.mpr fun c _ => by simp [IsMerged, hp, he]

/-- Two or more single excluded values join the list of others, if there is one. -/
theorem mergeExcluded_eq (h : ∀ v ∈ valuesOf "$nin" clauses, ∃ items, v = .list items)
    (hlists : (valuesOf "$nin" clauses).length ≤ 1) :
    mergeClauses "$nin" "$nin" flatten (mergeClauses "$ne" "$nin" .list clauses) =
      if 2 ≤ (valuesOf "$ne" clauses).length then
        erase (erase clauses "$ne") "$nin" ++ mergedExcluded clauses
      else clauses := by
  split
  · rename_i hseveral
    let added : List Clause := [("$nin", .list (valuesOf "$ne" clauses))]
    have hmerged : mergeClauses "$ne" "$nin" .list clauses = erase clauses "$ne" ++ added :=
      mergeClauses_of_two_le hseveral
    have hvalues : valuesOf "$nin" (erase clauses "$ne" ++ added) =
        valuesOf "$nin" clauses ++ [.list (valuesOf "$ne" clauses)] := by
      rw [valuesOf_append, valuesOf_erase (by decide)]
      rfl
    rw [hmerged, mergedExcluded, if_pos hseveral, excludedValues]
    cases hlist : valuesOf "$nin" clauses with
    | nil =>
      have hnone : "$nin" ∉ names (erase clauses "$ne") :=
        valuesOf_eq_nil_iff.mp ((valuesOf_erase (by decide) clauses).trans hlist)
      have hsingle : (valuesOf "$nin" (erase clauses "$ne" ++ added)).length ≤ 1 := by
        simp [hvalues, hlist]
      rw [mergeClauses_of_length_le hsingle, erase_of_not_mem_names hnone]
      rfl
    | cons v rest =>
      obtain ⟨items, rfl⟩ := h v (hlist ▸ List.mem_cons_self)
      obtain rfl : rest = [] := by simpa [hlist] using hlists
      rw [hlist] at hvalues
      have herase : erase added "$nin" = [] := rfl
      rw [mergeClauses_of_two_le (by simp [hvalues]), erase_append, herase, List.append_nil,
        hvalues]
      simp [flatten, Value.list?]
  · rename_i hsingle
    have hsame : mergeClauses "$ne" "$nin" .list clauses = clauses :=
      mergeClauses_of_length_le (by rw [← valuesOf]; omega)
    rw [hsame]
    exact mergeClauses_of_length_le hlists

theorem eq_of_mem_names_mergedPatterns (h : name ∈ names (mergedPatterns clauses)) :
    name = "$all" := by
  rw [mergedPatterns] at h
  split at h
  · exact List.mem_singleton.mp h
  · cases h

theorem eq_of_mem_names_mergedExcluded (h : name ∈ names (mergedExcluded clauses)) :
    name = "$nin" := by
  rw [mergedExcluded] at h
  split at h
  · exact List.mem_singleton.mp h
  · cases h

/-- What the three merges come to. -/
theorem merged_eq (h : ∀ c ∈ clauses, Translated c)
    (hlists : (valuesOf "$nin" clauses).length ≤ 1) :
    merged clauses = unmerged clauses ++ mergedPatterns clauses ++ mergedExcluded clauses := by
  have hsame : ∀ name, name ≠ "$regex" → name ≠ "$all" →
      valuesOf name (besidePatterns clauses ++ mergedPatterns clauses) = valuesOf name clauses :=
    fun name hp ha => mergePatterns_eq h ▸ valuesOf_mergeClauses hp ha
  have hlist := hsame "$nin" (by decide) (by decide)
  have hexcluded := hsame "$ne" (by decide) (by decide)
  have hitems : ∀ v ∈ valuesOf "$nin" clauses, ∃ items, v = .list items :=
    fun v hv => (h _ (mem_valuesOf.mp hv)).excluded rfl
  -- The patterns are merged first, and the later merges pass over them.
  have hkeep : ∀ name, name ≠ "$all" →
      erase (mergedPatterns clauses) name = mergedPatterns clauses :=
    fun name hn => erase_of_not_mem_names fun hm => hn (eq_of_mem_names_mergedPatterns hm)
  rw [merged, mergePatterns_eq h, mergeExcluded_eq (hlist ▸ hitems) (hlist ▸ hlists), unmerged_eq]
  simp only [mergedExcluded, excludedValues, hlist, hexcluded]
  split
  · rw [erase_append, erase_append, hkeep "$ne" (by decide), hkeep "$nin" (by decide)]
  · rw [List.append_nil]

/-- Clauses that are not merged can be taken out before or after. -/
theorem erase_mergeClauses (hname : name ≠ operator) (hinto : name ≠ into) :
    erase (mergeClauses operator into combine clauses) name =
      mergeClauses operator into combine (erase clauses name) := by
  have hvalues := valuesOf_erase hname.symm clauses
  by_cases h : (valuesOf operator clauses).length ≤ 1
  · rw [mergeClauses_of_length_le h,
      mergeClauses_of_length_le (by rw [← valuesOf, hvalues]; exact h)]
  · rw [mergeClauses_of_two_le (by omega), mergeClauses_of_two_le (by rw [hvalues]; omega), hvalues,
      erase_append, erase_of_not_mem_names (r := [(into, _)]) (by simpa [names] using hinto)]
    simp only [erase, List.filter_filter, Bool.and_comm]

end Merging

/-- Known operators with what they take. Nothing is asked of the value of a logical operator. -/
structure KnownConditions (conditions : Record Value) : Prop where
  distinct : conditions.Distinct
  known : ∀ c ∈ conditions, ∃ op ∈ Operator.ofToken? c.1, op.isLogical ∨ takes op c.2

instance (conditions : Record Value) : Decidable (KnownConditions conditions) :=
  decidable_of_iff
    (conditions.names.Nodup ∧
      ∀ c ∈ conditions, ∃ op ∈ Operator.ofToken? c.1, op.isLogical ∨ takes op c.2)
    ⟨fun ⟨h1, h2⟩ => ⟨h1, h2⟩, fun ⟨h1, h2⟩ => ⟨h1, h2⟩⟩

section Conditions
variable {conditions : Record Value}

theorem KnownConditions.translated (h : KnownConditions conditions) :
    ∀ c ∈ clausesOf conditions, Translated c := by
  intro c hc
  obtain ⟨condition, hm, rfl⟩ := List.mem_map.mp hc
  obtain ⟨op, ht, hlogical | htakes⟩ := h.known condition hm
  · rw [clause_of_token ht]
    cases op with
    | logical op => cases op <;> constructor <;> simp [readOperator, Operator.token]
    | _ => cases hlogical
  · rw [clause_of_token ht]
    exact translated_readOperator htakes

theorem KnownConditions.count_names_le (h : KnownConditions conditions) {name : String}
    (hp : name ≠ "$regex") (he : name ≠ "$ne") (hq : name ≠ "$eq") :
    (names (clausesOf conditions)).count name ≤ 1 := by
  have hsame : ∀ c ∈ conditions, (clause c.1 c.2).1 = name → c.1 = name := by
    intro c hc hn
    obtain ⟨op, ht, -⟩ := h.known c hc
    rw [clause_of_token ht] at hn
    rcases name_readOperator hn hp he with hname | ⟨hname, -⟩
    · exact (Operator.token_of_ofToken? ht).symm.trans hname
    · exact absurd hname hq
  exact count_names_clausesOf_le h.distinct hsame

theorem erase_merged (clauses : List Clause) :
    erase (merged clauses) "$eq" = merged (erase clauses "$eq") := by
  rw [merged, merged, erase_mergeClauses (by decide) (by decide),
    erase_mergeClauses (by decide) (by decide), erase_mergeClauses (by decide) (by decide)]

theorem KnownConditions.distinct_erase (h : KnownConditions conditions) :
    Distinct (erase (merged (clausesOf conditions)) "$eq") := by
  have hnames :
      (names (erase (clausesOf conditions) "$eq")).Sublist (names (clausesOf conditions)) :=
    List.filter_sublist.map _
  -- Without the tests of equality no two operators become clauses of one name but those merged.
  rw [erase_merged]
  apply distinct_merged
  · intro hm
    obtain ⟨c, hc, hn⟩ := List.mem_map.mp (hnames.subset hm)
    exact (h.translated c hc).not_all hn
  · intro name hp he
    by_cases hq : name = "$eq"
    · subst hq
      rw [List.count_eq_zero.mpr (not_mem_names_erase _ _)]
      exact Nat.zero_le 1
    · exact Nat.le_trans (hnames.count_le name) (h.count_names_le hp he hq)

end Conditions

/-- The conditions of a field become the clauses that are not merged, in their order; then the
patterns, if they are merged; then the excluded values, if they are. Two tests of equality become
one, at the place of the first with the value of the last. -/
theorem ofConditions_ordered {conditions : Record Value} (h : KnownConditions conditions) :
    ofConditions (.object conditions) =
      .object (joined "$eq" (unmerged (clausesOf conditions)) ++
        mergedPatterns (clausesOf conditions) ++ mergedExcluded (clausesOf conditions)) := by
  have hlists : (valuesOf "$nin" (clausesOf conditions)).length ≤ 1 := by
    rw [length_valuesOf]
    exact h.count_names_le (by decide) (by decide) (by decide)
  have hother : "$eq" ∉ names (mergedPatterns (clausesOf conditions) ++
      mergedExcluded (clausesOf conditions)) := by
    rw [names_append, List.mem_append, not_or]
    exact ⟨fun hm => absurd (eq_of_mem_names_mergedPatterns hm) (by decide),
      fun hm => absurd (eq_of_mem_names_mergedExcluded hm) (by decide)⟩
  calc ofConditions (.object conditions)
      = .object (ofList (merged (clausesOf conditions))) := rfl
    _ = .object (joined "$eq" (merged (clausesOf conditions))) := by
      rw [ofList_eq_joined h.distinct_erase]
    _ = _ := by
      rw [merged_eq h.translated hlists, List.append_assoc, joined_append hother, List.append_assoc]

/-- All merges at once, around two tests of equality. -/
def crowded : Record Value :=
  [("$null", .bool true), ("$end", .string "z"), ("$nin", .list [.int 1, .int 2]),
    ("$def", .null), ("$gt", .int 0), ("$regex", .int 5), ("$neq", .string "b"),
    ("$start", .string "a."), ("$eq", .int 3), ("$in", .list [.int 3])]

theorem ofConditions_ordered_crowded :
    KnownConditions crowded ∧
    ofConditions (.object crowded) =
      .object (joined "$eq" (unmerged (clausesOf crowded)) ++
        mergedPatterns (clausesOf crowded) ++ mergedExcluded (clausesOf crowded)) ∧
    ofConditions (.object crowded) =
      .object [("$eq", .int 3), ("$gt", .int 0), ("$in", .list [.int 3]),
        ("$all", .list [.regex "z$", .regex "5", .regex "^a\\."]),
        ("$nin", .list [.int 1, .int 2, .null, .string "b"])] := by
  have hknown : KnownConditions crowded := by decide
  have hordered := ofConditions_ordered hknown
  refine ⟨hknown, hordered, hordered.trans ?_⟩
  rfl

end StoreQuery

end DocumentApi
