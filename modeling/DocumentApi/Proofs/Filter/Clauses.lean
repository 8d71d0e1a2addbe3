import DocumentApi.Store.Query

/-!
The clauses of a field and how they are merged: what each operator becomes, what a merged clause
stands for, and that merged clauses have distinct names.
-/

set_option autoImplicit false

namespace DocumentApi.StoreQuery

def readOperator : Operator → Value → Clause
  | .value .notEquals, v => ("$ne", v)
  | .value .isDefined, _ => ("$ne", .null)
  | .value .isNull, _ => ("$eq", .null)
  | .value .startWith, v => ("$regex", .string ("^" ++ literal v))
  | .value .endWith, v => ("$regex", .string (literal v ++ "$"))
  | .value .regex, v => ("$regex", .string (patternText v))
  | op, v => (op.token, v)

theorem clause_of_token {token : String} {op : Operator} (h : Operator.ofToken? token = some op)
    (v : Value) : clause token v = readOperator op v := by
  have ht := Operator.token_of_ofToken? h
  simp only [clause, h]
  rcases op with op | op | op <;> cases op <;> simp [readOperator, ← ht]

/-- The clauses of the conditions of a field, one by one. -/
def clausesOf (conditions : Record Value) : List Clause := conditions.map fun c => clause c.1 c.2

/-- Outside of the clauses that are merged, only the test for null goes by another name. -/
theorem name_readOperator {op : Operator} {v : Value} {name : String}
    (h : (readOperator op v).1 = name) (hp : name ≠ "$regex") (he : name ≠ "$ne") :
    op.token = name ∨ (name = "$eq" ∧ op.token = "$null") := by
  subst h
  rcases op with op | op | op <;> cases op <;> simp_all [readOperator, Operator.token]

def valuesOf (operator : String) (clauses : List Clause) : List Value :=
  (clauses.filter fun c => c.1 = operator).map (·.2)

theorem mem_valuesOf {operator : String} {clauses : List Clause} {v : Value} :
    v ∈ valuesOf operator clauses ↔ (operator, v) ∈ clauses := by
  simp only [valuesOf, List.mem_map, List.mem_filter, decide_eq_true_eq]
  constructor
  · rintro ⟨⟨_, _⟩, ⟨hc, rfl⟩, rfl⟩
    exact hc
  · intro h
    exact ⟨(operator, v), ⟨h, rfl⟩, rfl⟩

theorem mergeClauses_eq (operator into : String) (combine : List Value → Value)
    (clauses : List Clause) :
    mergeClauses operator into combine clauses =
      if (valuesOf operator clauses).length ≤ 1 then clauses
      else clauses.filter (fun c => c.1 ≠ operator) ++
        [(into, combine (valuesOf operator clauses))] := rfl

theorem length_valuesOf (operator : String) (clauses : List Clause) :
    (valuesOf operator clauses).length = (Record.names clauses).count operator := by
  rw [valuesOf, List.length_map, Record.names, List.count, List.countP_map,
    List.countP_eq_length_filter]
  exact congrArg List.length (List.filter_congr fun c _ => rfl)

theorem names_filter_ne (operator : String) (clauses : List Clause) :
    Record.names (clauses.filter fun c => c.1 ≠ operator) =
      (Record.names clauses).filter fun name => name ≠ operator := by
  simp [Record.names, List.filter_map, Function.comp_def]

theorem mem_mergeClauses {operator into : String} {combine : List Value → Value}
    {clauses : List Clause} {c : Clause} (h : c ∈ mergeClauses operator into combine clauses) :
    c ∈ clauses ∨ c = (into, combine (valuesOf operator clauses)) := by
  rw [mergeClauses_eq] at h
  split at h
  · exact Or.inl h
  · rcases List.mem_append.mp h with h | h
    · exact Or.inl (List.mem_filter.mp h).1
    · exact Or.inr (List.mem_singleton.mp h)

/-- A merged clause stands for the clauses that it replaces. -/
theorem forall_mem_mergeClauses {holds : Clause → Prop} {operator into : String}
    {combine : List Value → Value} {clauses : List Clause}
    (h : valuesOf operator clauses ≠ [] → (holds (into, combine (valuesOf operator clauses)) ↔
      ∀ v ∈ valuesOf operator clauses, holds (operator, v))) :
    (∀ c ∈ mergeClauses operator into combine clauses, holds c) ↔ ∀ c ∈ clauses, holds c := by
  rw [mergeClauses_eq]
  split
  · exact Iff.rfl
  · rename_i hlong
    have hne : valuesOf operator clauses ≠ [] := by
      intro he
      simp [he] at hlong
    constructor
    · rintro hall ⟨name, v⟩ hc
      by_cases ho : name = operator
      · subst ho
        exact (h hne).mp (hall _ (by simp)) v (mem_valuesOf.mpr hc)
      · exact hall _ (by simp [hc, ho])
    · intro hall c hc
      rcases List.mem_append.mp hc with hc | hc
      · exact hall c (List.mem_filter.mp hc).1
      · rw [List.mem_singleton.mp hc]
        exact (h hne).mpr fun v hv => hall _ (mem_valuesOf.mp hv)

theorem mergeClauses_ne_nil {operator into : String} {combine : List Value → Value}
    {clauses : List Clause} (h : clauses ≠ []) :
    mergeClauses operator into combine clauses ≠ [] := by
  rw [mergeClauses_eq]
  split
  · exact h
  · simp

theorem count_names_mergeClauses (operator into : String) (combine : List Value → Value)
    (clauses : List Clause) (name : String) :
    (Record.names (mergeClauses operator into combine clauses)).count name =
      if (Record.names clauses).count operator ≤ 1 then (Record.names clauses).count name
      else (if name = operator then 0 else (Record.names clauses).count name) +
        if name = into then 1 else 0 := by
  rw [mergeClauses_eq, length_valuesOf]
  split
  · rfl
  · have hrest : (Record.names (clauses.filter fun c => c.1 ≠ operator)).count name =
        if name = operator then 0 else (Record.names clauses).count name := by
      rw [names_filter_ne]
      split
      · rename_i hn
        simp [hn, List.count_eq_zero]
      · rename_i hn
        exact List.count_filter (by simpa using hn)
    rw [← hrest, Record.names, List.map_append, List.count_append]
    by_cases hi : name = into
    · simp [Record.names, hi]
    · simp [Record.names, hi, Ne.symm hi]

theorem distinct_merged {clauses : List Clause} (hall : "$all" ∉ Record.names clauses)
    (h : ∀ name, name ≠ "$regex" → name ≠ "$ne" → (Record.names clauses).count name ≤ 1) :
    Record.Distinct (merged clauses) := by
  rw [Record.Distinct, List.nodup_iff_count]
  intro name
  have hname := h name
  have hlist := h "$nin" (by simp) (by simp)
  have hall := List.count_eq_zero.mpr hall
  simp only [merged, count_names_mergeClauses]
  by_cases hp : name = "$regex"
  · grind
  · by_cases he : name = "$ne"
    · grind
    · grind

end DocumentApi.StoreQuery
