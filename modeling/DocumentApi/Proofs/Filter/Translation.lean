import DocumentApi.Proofs.Filter.Meaning

/-!
Rewriting a filter as a query keeps its meaning: the query selects the documents that the filter
describes, whatever single clauses mean to the store.
-/

set_option autoImplicit false

namespace DocumentApi.StoreQuery

/-- What can be said of the clauses that come from well-formed conditions. -/
structure Translated (c : Clause) : Prop where
  not_all : c.1 ≠ "$all"
  pattern : c.1 = "$regex" → ∃ p, c.2 = .string p
  excluded : c.1 = "$nin" → ∃ items, c.2 = .list items

theorem translated_readOperator {op : Operator} {v : Value} (h : takes op v) :
    Translated (readOperator op v) := by
  rcases op with op | op | op
  · cases op <;>
      exact ⟨by simp [readOperator, Operator.token], by simp [readOperator, Operator.token],
        by simp [readOperator, Operator.token]⟩
  · obtain ⟨items, rfl⟩ : ∃ items, v = .list items := by
      cases v <;> simp [takes] at h ⊢
    cases op <;>
      exact ⟨by simp [readOperator, Operator.token], by simp [readOperator, Operator.token],
        fun _ => ⟨items, rfl⟩⟩
  · simp [takes] at h

section Merging
variable {I : Interpretation} {d : Document} {field : String} {clauses : List Clause}

theorem forall_mem_mergePatterns (h : ∀ c ∈ clauses, Translated c) :
    (∀ c ∈ mergeClauses "$regex" "$all" patterns clauses, I.holds d field c) ↔
      ∀ c ∈ clauses, I.holds d field c := by
  apply forall_mem_mergeClauses
  intro hne
  have htext : ∀ v ∈ valuesOf "$regex" clauses, v = .string v.text := by
    intro v hv
    obtain ⟨p, rfl⟩ := (h _ (mem_valuesOf.mp hv)).pattern rfl
    rfl
  have hp := I.holds_all d field ((valuesOf "$regex" clauses).map Value.text) (by simpa using hne)
  rw [List.map_map] at hp
  apply hp.trans
  simp only [List.forall_mem_map]
  exact forall₂_congr fun v hv => by rw [← htext v hv]

theorem forall_mem_mergeExcluded :
    (∀ c ∈ mergeClauses "$ne" "$nin" .list clauses, I.holds d field c) ↔
      ∀ c ∈ clauses, I.holds d field c :=
  forall_mem_mergeClauses fun _ => I.holds_notIn d field _

theorem forall_mem_mergeLists
    (h : ∀ items, items ∈ valuesOf "$nin" clauses → ∃ values, items = .list values) :
    (∀ c ∈ mergeClauses "$nin" "$nin" flatten clauses, I.holds d field c) ↔
      ∀ c ∈ clauses, I.holds d field c := by
  apply forall_mem_mergeClauses
  intro _
  rw [flatten, I.holds_notIn]
  simp only [List.mem_flatMap, forall_exists_index, and_imp]
  constructor
  · intro hall items hi
    obtain ⟨values, rfl⟩ := h items hi
    exact (I.holds_notIn d field values).mpr fun v hv => hall v _ hi hv
  · intro hall v items hi hv
    obtain ⟨values, rfl⟩ := h items hi
    exact (I.holds_notIn d field values).mp (hall _ hi) v hv

end Merging

/-- All three merges together keep what the clauses say. -/
theorem forall_mem_merged {I : Interpretation} {d : Document} {field : String}
    {clauses : List Clause} (h : ∀ c ∈ clauses, Translated c) :
    (∀ c ∈ merged clauses, I.holds d field c) ↔ ∀ c ∈ clauses, I.holds d field c := by
  have hlists : ∀ items, items ∈ valuesOf "$nin" (mergeClauses "$ne" "$nin" .list
      (mergeClauses "$regex" "$all" patterns clauses)) → ∃ values, items = .list values := by
    intro items hi
    rcases mem_mergeClauses (mem_valuesOf.mp hi) with hm | hm
    · rcases mem_mergeClauses hm with hm | hm
      · exact (h _ hm).excluded rfl
      · exact absurd (congrArg Prod.fst hm) (by simp)
    · exact ⟨_, congrArg Prod.snd hm⟩
  rw [merged, forall_mem_mergeLists hlists, forall_mem_mergeExcluded, forall_mem_mergePatterns h]

section Conditions
variable {conditions : Record Value}

theorem translated_clausesOf (h : ValidConditions conditions) :
    ∀ c ∈ clausesOf conditions, Translated c := by
  intro c hc
  obtain ⟨condition, hm, rfl⟩ := List.mem_map.mp hc
  obtain ⟨op, ht, hv⟩ := h.known condition hm
  rw [clause_of_token ht]
  exact translated_readOperator hv

/-- Clauses of a name that only one operator becomes stand once at most. -/
theorem count_names_clausesOf_le (hdistinct : conditions.Distinct) {name token : String}
    (h : ∀ c ∈ conditions, (clause c.1 c.2).1 = name → c.1 = token) :
    (Record.names (clausesOf conditions)).count name ≤ 1 := by
  have hle : (Record.names (clausesOf conditions)).count name ≤ conditions.names.count token := by
    simp only [Record.names, clausesOf, List.count, List.countP_map]
    exact List.countP_mono_left fun c hc hn => by simpa using h c hc (by simpa using hn)
  exact Nat.le_trans hle (List.nodup_iff_count.mp hdistinct token)

theorem count_names_clausesOf (h : ValidConditions conditions) {name : String}
    (hp : name ≠ "$regex") (he : name ≠ "$ne") :
    (Record.names (clausesOf conditions)).count name ≤ 1 := by
  obtain ⟨token, htoken⟩ : ∃ token, ∀ c ∈ conditions, (clause c.1 c.2).1 = name → c.1 = token := by
    refine ⟨if name = "$eq" ∧ "$eq" ∉ conditions.names then "$null" else name, ?_⟩
    intro c hc hn
    obtain ⟨op, ht, _⟩ := h.known c hc
    rw [clause_of_token ht] at hn
    have hmem : c.1 ∈ conditions.names := List.mem_map_of_mem hc
    have hor := h.equals_or_null
    rw [← Operator.token_of_ofToken? ht] at hmem ⊢
    rcases name_readOperator hn hp he with hn | ⟨hq, hn⟩
    · rw [hn] at hmem ⊢
      rw [if_neg]
      rintro ⟨rfl, hnot⟩
      exact hnot hmem
    · rw [hn] at hmem ⊢
      rw [if_pos ⟨hq, hor.resolve_right (fun hnot => hnot hmem)⟩]
  exact count_names_clausesOf_le h.distinct htoken

theorem distinct_merged_clausesOf (h : ValidConditions conditions) :
    Record.Distinct (merged (clausesOf conditions)) := by
  apply distinct_merged
  · intro hm
    obtain ⟨c, hc, hn⟩ := List.mem_map.mp hm
    exact (translated_clausesOf h c hc).not_all hn
  · exact fun name hp he => count_names_clausesOf h hp he

theorem ofConditions_object (h : ValidConditions conditions) :
    ofConditions (.object conditions) = .object (merged (clausesOf conditions)) :=
  congrArg Value.object (Record.ofList_of_distinct (distinct_merged_clausesOf h))

variable (I : Interpretation) (d : Document) (field : String)

theorem meets_object {clauses : List Clause} (h : clauses ≠ []) :
    I.meets d field (.object clauses) ↔ ∀ c ∈ clauses, I.holds d field c := by
  cases clauses with
  | nil => exact absurd rfl h
  | cons c rest => exact Iff.rfl

theorem satisfies_object (h : ValidConditions conditions) :
    I.satisfies d field (.object conditions) ↔
      ∀ c ∈ clausesOf conditions, I.holds d field c := by
  have hall : I.satisfies d field (.object conditions) ↔ ∀ c ∈ conditions, ∀ op,
      Operator.ofToken? c.1 = some op → I.holds d field (readOperator op c.2) := by
    cases conditions with
    | nil => exact absurd rfl h.nonempty
    | cons c rest => exact Iff.rfl
  rw [hall, clausesOf, List.forall_mem_map]
  refine forall₂_congr fun c hc => ?_
  obtain ⟨op, ht, _⟩ := h.known c hc
  simp [Option.mem_def.mp ht, clause_of_token ht]

/-- The conditions of one field mean the same before and after. -/
theorem meets_ofConditions (h : ValidConditions conditions) :
    I.meets d field (ofConditions (.object conditions)) ↔
      I.satisfies d field (.object conditions) := by
  have hne : merged (clausesOf conditions) ≠ [] := by
    refine mergeClauses_ne_nil (mergeClauses_ne_nil (mergeClauses_ne_nil ?_))
    simpa [clausesOf] using h.nonempty
  rw [ofConditions_object h, meets_object I d field hne,
    forall_mem_merged (translated_clausesOf h), satisfies_object I d field h]

end Conditions

section Trees
variable (I : Interpretation) (d : Document)

theorem branchHolds_ofBranch {branch : Value} (h : ValidBranch branch) :
    branchHolds (I.meets d) (ofBranch branch) ↔ branchHolds (I.satisfies d) branch := by
  obtain ⟨fields, hb, hf⟩ := h
  obtain rfl := Value.eq_object_of_mem hb
  simp only [ofBranch, branchHolds, List.forall_mem_map]
  refine forall₂_congr fun field hm => ?_
  obtain ⟨_, conditions, hv, hc⟩ := hf field hm
  rw [Value.eq_object_of_mem hv]
  exact meets_ofConditions I d field.1 hc

theorem entryHolds_of_not_logical (reads : String → Value → Prop) {key : String}
    (h : ¬ Operator.isLogicalToken key) (value : Value) :
    entryHolds reads key value ↔ reads key value := by
  rw [Operator.isLogicalToken_iff] at h
  unfold entryHolds
  split
  · rename_i hk
    exact absurd ⟨_, hk⟩ h
  · rename_i hk
    exact absurd ⟨_, hk⟩ h
  · exact Iff.rfl

theorem entryHolds_ofEntry {key : String} {value : Value} (h : ValidEntry key value) :
    entryHolds (I.meets d) key (ofEntry key value) ↔ entryHolds (I.satisfies d) key value := by
  by_cases hl : Operator.isLogicalToken key
  · rw [ValidEntry, if_pos hl] at h
    obtain ⟨branches, hv, hb⟩ := h
    obtain rfl := Value.eq_list_of_mem hv
    obtain ⟨op, ht⟩ := Operator.isLogicalToken_iff.mp hl
    simp only [ofEntry, hl, if_true]
    cases op with
    | or =>
      simp only [entryHolds, ht]
      constructor
      · rintro ⟨query, hq, hholds⟩
        obtain ⟨b, hm, rfl⟩ := List.mem_map.mp hq
        exact ⟨b, hm, (branchHolds_ofBranch I d (hb b hm)).mp hholds⟩
      · rintro ⟨b, hm, hholds⟩
        exact ⟨_, List.mem_map_of_mem hm, (branchHolds_ofBranch I d (hb b hm)).mpr hholds⟩
    | and =>
      simp only [entryHolds, ht, List.forall_mem_map]
      exact forall₂_congr fun b hm => branchHolds_ofBranch I d (hb b hm)
  · rw [ValidEntry, if_neg hl] at h
    obtain ⟨_, conditions, hv, hc⟩ := h
    obtain rfl := Value.eq_object_of_mem hv
    rw [entryHolds_of_not_logical _ hl, entryHolds_of_not_logical _ hl]
    exact meets_ofConditions I d key hc

theorem accepts_ofFilter {filter : Record Value} (h : ValidFilter filter) :
    Accepts I (ofFilter filter) d ↔ Describes I filter d := by
  simp only [Accepts, Describes, recordHolds, ofFilter, List.forall_mem_map]
  exact forall₂_congr fun entry hm => entryHolds_ofEntry I d (h entry hm)

end Trees

/-- A well-formed filter has a query, which selects the documents that the filter describes. -/
theorem ofTree_keeps_meaning {filter : Record Value} (h : ValidFilter filter) :
    ∃ query, ofTree (.object filter) = .ok query ∧
      ∀ (I : Interpretation) (d : Document), Accepts I query d ↔ Describes I filter d :=
  ⟨ofFilter filter, rfl, fun I d => accepts_ofFilter I d h⟩

/-- Whether a text has a pattern that has no special characters but the marks of the ends. -/
def Found (pattern text : String) : Prop :=
  match pattern.toList, pattern.toList.reverse with
  | '^' :: start, _ => start <+: text.toList
  | _, '$' :: final => final.reverse <:+ text.toList
  | cs, _ => cs <:+: text.toList

def Interpretation.byValue : Interpretation where
  holds d field c :=
    let value := (Record.get? d field).getD .null
    match c with
    | ("$eq", v) => value = v
    | ("$ne", v) => value ≠ v
    | ("$in", .list values) => value ∈ values
    | ("$nin", .list values) => value ∉ values
    | ("$regex", .string p) => ∃ text, value = .string text ∧ Found p text
    | ("$all", .list patterns) =>
      ∀ v ∈ patterns, ∃ p, v = .regex p ∧ ∃ text, value = .string text ∧ Found p text
    | _ => False
  holds_notIn d field values := by
    simp only [ne_eq]
    exact ⟨fun h v hv he => h (he ▸ hv), fun h hv => h _ hv rfl⟩
  holds_all d field patterns _ := by
    simp only [List.forall_mem_map, Value.regex.injEq, exists_eq_left']

/-- A filter on which all three merges take place, beside a choice of branches. -/
def mergingFilter : Record Value :=
  [("name", .object [("$start", .string "A"), ("$neq", .string "Abz"),
      ("$nin", .list [.string "Az"]), ("$def", .bool true), ("$end", .string "z")]),
    ("$or", .list [.object [("age", .object [("$null", .bool true)])],
      .object [("age", .object [("$in", .list [.int 3, .int 4])])]])]

theorem ofTree_keeps_meaning_merging :
    ValidFilter mergingFilter ∧ ∃ query, ofTree (.object mergingFilter) = .ok query ∧
      (Accepts .byValue query [("name", .string "Acz"), ("age", .int 4)] ↔
        Describes .byValue mergingFilter [("name", .string "Acz"), ("age", .int 4)]) ∧
      Accepts .byValue query [("name", .string "Acz"), ("age", .int 4)] := by
  have hvalid : ValidFilter mergingFilter := by decide
  obtain ⟨query, hquery, hiff⟩ := ofTree_keeps_meaning hvalid
  have hmeant : Describes .byValue mergingFilter [("name", .string "Acz"), ("age", .int 4)] := by
    intro entry he
    simp only [mergingFilter, List.mem_cons, List.not_mem_nil, or_false] at he
    rcases he with rfl | rfl
    · rw [entryHolds_of_not_logical _ (by decide)]
      intro condition hc op ho
      simp only [List.mem_cons, List.not_mem_nil, or_false] at hc
      rcases hc with rfl | rfl | rfl | rfl | rfl
      · obtain rfl : .value .startWith = op := Option.some.inj ho
        exact ⟨"Acz", rfl, ['c', 'z'], rfl⟩
      · obtain rfl : .value .notEquals = op := Option.some.inj ho
        exact fun he => absurd he (by decide)
      · obtain rfl : .list .notIn = op := Option.some.inj ho
        exact fun hm => absurd hm (by decide)
      · obtain rfl : .value .isDefined = op := Option.some.inj ho
        exact fun he => absurd he (by decide)
      · obtain rfl : .value .endWith = op := Option.some.inj ho
        exact ⟨"Acz", rfl, ['A', 'c'], rfl⟩
    · refine ⟨.object [("age", .object [("$in", .list [.int 3, .int 4])])], by simp, ?_⟩
      intro field hf
      rw [List.mem_singleton.mp hf]
      intro condition hc op ho
      rw [List.mem_singleton.mp hc] at ho ⊢
      obtain rfl : .list .isIn = op := Option.some.inj ho
      exact List.mem_cons_of_mem _ List.mem_cons_self
  exact ⟨hvalid, query, hquery, hiff _ _, (hiff _ _).mpr hmeant⟩

end DocumentApi.StoreQuery
