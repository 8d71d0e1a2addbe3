import DocumentApi.Proofs.Filter.Allowed
import DocumentApi.Proofs.Filter.Clauses

/-!
The query of a filter that passed the check has no other names than the filter, and for its
conditions images of the allowed operators or what such images are merged to. Main statements:
`confined_of_validate`, and `reserved_of_validate` on the names that the store could take for
operators.
-/

set_option autoImplicit false

namespace DocumentApi

namespace StoreQuery

/-- The name of a clause that allowed operators can lead to, alone or merged. -/
inductive ClauseName (operators : List Operator) : String → Prop where
  | image {op : Operator} (v : Value) (hop : op ∈ operators) (hplain : op.isLogical = false) :
    ClauseName operators (clause op.token v).1
  | patterns {op : Operator} (v : Value) (hop : op ∈ operators) (hplain : op.isLogical = false)
      (h : (clause op.token v).1 = "$regex") : ClauseName operators "$all"
  | excluded {op : Operator} (v : Value) (hop : op ∈ operators) (hplain : op.isLogical = false)
      (h : (clause op.token v).1 = "$ne") : ClauseName operators "$nin"

section Names
variable {operators : List Operator}

theorem ClauseName.patterns_of_pattern (h : ClauseName operators "$regex") :
    ClauseName operators "$all" := by
  generalize hname : "$regex" = name at h
  cases h with
  | image v hop hplain => exact .patterns v hop hplain hname.symm
  | patterns => simp at hname
  | excluded => simp at hname

theorem ClauseName.excluded_of_different (h : ClauseName operators "$ne") :
    ClauseName operators "$nin" := by
  generalize hname : "$ne" = name at h
  cases h with
  | image v hop hplain => exact .excluded v hop hplain hname.symm
  | patterns => simp at hname
  | excluded => simp at hname

theorem forall_names_mergeClauses {allowed : String → Prop} {operator into : String}
    {combine : List Value → Value} {clauses : List Clause} (hinto : allowed operator → allowed into)
    (h : ∀ c ∈ clauses, allowed c.1) :
    ∀ c ∈ mergeClauses operator into combine clauses, allowed c.1 := by
  rw [mergeClauses_eq]
  split
  · exact h
  · rename_i hlong
    intro c hc
    rcases List.mem_append.mp hc with hc | hc
    · exact h c (List.mem_filter.mp hc).1
    · rw [List.mem_singleton.mp hc]
      obtain ⟨v, hv⟩ := List.exists_mem_of_length_pos (by omega : 0 < (valuesOf operator clauses).length)
      exact hinto (h _ (mem_valuesOf.mp hv))

theorem clauseName_merged {clauses : List Clause} (h : ∀ c ∈ clauses, ClauseName operators c.1) :
    ∀ c ∈ merged clauses, ClauseName operators c.1 :=
  forall_names_mergeClauses id (forall_names_mergeClauses ClauseName.excluded_of_different
    (forall_names_mergeClauses ClauseName.patterns_of_pattern h))

end Names

/-- The conditions of a field lead to clauses with allowed names. -/
theorem clauseName_ofConditions {v : Validator} {value : Value}
    (h : ∀ conditions, value = .object conditions → ∀ c ∈ conditions, v.AllowedToken c.1) :
    ∀ clauses, ofConditions value = .object clauses → ∀ c ∈ clauses, ClauseName v.operators c.1 := by
  intro clauses hclauses c hc
  cases value with
  | object conditions =>
    obtain rfl := Value.object.inj hclauses
    have hnames : ∀ c ∈ merged (clausesOf conditions), ClauseName v.operators c.1 := by
      apply clauseName_merged
      intro c hc
      obtain ⟨condition, hmem, rfl⟩ := List.mem_map.mp hc
      obtain ⟨op, hop, hplain, htoken⟩ := h conditions rfl condition hmem
      rw [← htoken]
      exact .image _ hop hplain
    have hname := Record.mem_names_ofList.mp (List.mem_map_of_mem hc)
    obtain ⟨c', hc', hname⟩ := List.mem_map.mp hname
    rw [← hname]
    exact hnames c' hc'
  | _ => cases hclauses

theorem ofEntry_of_not_logical {key : String} (hkey : Operator.isLogicalToken key = false)
    (value : Value) : ofEntry key value = ofConditions value := by
  cases value <;> simp [ofEntry, hkey]

/-- The filters that a logical operator combines come from those of its value, name by name. -/
theorem ofEntry_eq_list {key : String} {value : Value} {items : List Value}
    (hkey : Operator.isLogicalToken key) (h : ofEntry key value = .list items)
    {fields : Record Value} (hf : .object fields ∈ items) :
    ∃ items', value = .list items' ∧ ∃ fields', .object fields' ∈ items' ∧
      fields = fields'.map fun field => (field.1, ofConditions field.2) := by
  cases value with
  | list items' =>
    simp only [ofEntry, hkey, if_true, Value.list.injEq] at h
    subst h
    obtain ⟨item, hitem, heq⟩ := List.mem_map.mp hf
    cases item with
    | object fields' => exact ⟨items', rfl, fields', hitem, (Value.object.inj heq).symm⟩
    | _ => cases heq
  | _ => cases h

end StoreQuery

namespace Validator

open StoreQuery

variable {v : Validator}

/-- A field of a query: an allowed one, under names of clauses that allowed operators lead to. -/
abbrev ConfinedField (v : Validator) : String × Value → Prop :=
  FieldEntry (fun name => v.allowsField name) (ClauseName v.operators)

abbrev ConfinedEntry (v : Validator) : String × Value → Prop :=
  FilterEntry v.operators v.escape v.ConfinedField

theorem AllowedField.confined {field : String × Value} (h : v.AllowedField field) :
    v.ConfinedField (field.1, ofConditions field.2) :=
  ⟨h.plain, h.named, clauseName_ofConditions h.conditions⟩

theorem AllowedEntry.confined {entry : String × Value} (h : v.AllowedEntry entry) :
    v.ConfinedEntry (entry.1, ofEntry entry.1 entry.2) := by
  cases h with
  | field h =>
    rw [ofEntry_of_not_logical h.plain]
    exact .field (AllowedField.confined h)
  | @logical op value hop h =>
    have hlogical := Operator.isLogicalToken_iff.mpr ⟨op, Operator.ofToken?_token _⟩
    refine .logical hop fun items hitems fields hf field hmem => ?_
    obtain ⟨items', rfl, fields', hf', rfl⟩ := ofEntry_eq_list hlogical hitems hf
    obtain ⟨field', hmem', rfl⟩ := List.mem_map.mp hmem
    exact AllowedField.confined (h items' rfl fields' hf' field' hmem')
  | escaped hescape hop => exact .escaped hescape hop

theorem confined_ofFilter {filter : Record Value} (h : ∀ entry ∈ filter, v.AllowedEntry entry) :
    ∀ entry ∈ ofFilter filter, v.ConfinedEntry entry := by
  intro entry he
  obtain ⟨entry', he', rfl⟩ := List.mem_map.mp he
  exact (h entry' he').confined

/-- A filter that passed the check has a query, which is confined to what is allowed. -/
theorem confined_of_validate (hp : v.policy ≠ .keep) {tree result : Value}
    (h : v.validate tree = .ok result) :
    ∃ query, ofTree result = .ok query ∧ ∀ entry ∈ query, v.ConfinedEntry entry := by
  rcases allowed_of_validate hp h with rfl | ⟨filter, rfl, hallowed⟩
  · exact ⟨[], rfl, by simp⟩
  · exact ⟨_, rfl, confined_ofFilter hallowed⟩

/-- A name that the store could take for an operator. -/
def IsReserved (name : String) : Prop := name.toList.head? = some '$'

instance (name : String) : Decidable (IsReserved name) := inferInstanceAs (Decidable (_ = _))

theorem not_isReserved_escaped (name : String) : ¬ IsReserved ("\\" ++ name) := by
  simp [IsReserved]

/-- A listed field has no reserved name, so only without a list can there be such a field. -/
theorem ConfinedField.fields_eq_none {field : String × Value} (h : v.ConfinedField field)
    (hlisted : ∀ fields, v.fields = some fields → ∀ name ∈ fields, ¬ IsReserved name)
    (hname : IsReserved field.1) : v.fields = none := by
  cases hf : v.fields with
  | none => rfl
  | some fields =>
    have hmem : field.1 ∈ fields := by simpa [allowsField, hf] using h.named
    exact absurd hname (hlisted fields hf _ hmem)

/-- The reserved names in the query of a checked filter are allowed logical operators, and none is
in their branches. Without a list of fields there may also be names that the check does not know. -/
theorem reserved_of_validate (hp : v.policy ≠ .keep)
    (hlisted : ∀ fields, v.fields = some fields → ∀ name ∈ fields, ¬ IsReserved name)
    {tree result : Value} (h : v.validate tree = .ok result) :
    ∃ query, StoreQuery.ofTree result = .ok query ∧ ∀ entry ∈ query,
      (IsReserved entry.1 →
        (∃ op, .logical op ∈ v.operators ∧ entry.1 = (Operator.logical op).token) ∨
        (v.fields = none ∧ Operator.isLogicalToken entry.1 = false)) ∧
      (Operator.isLogicalToken entry.1 → ∀ items, entry.2 = .list items →
        ∀ fields, .object fields ∈ items → ∀ field ∈ fields,
          Operator.isLogicalToken field.1 = false ∧ (IsReserved field.1 → v.fields = none)) := by
  obtain ⟨query, hquery, hconfined⟩ := confined_of_validate hp h
  refine ⟨query, hquery, fun entry he => ?_⟩
  cases hconfined entry he with
  | field hfield =>
    have hnone := ConfinedField.fields_eq_none hfield hlisted
    refine ⟨fun hname => Or.inr ⟨hnone hname, hfield.plain⟩, fun hl => ?_⟩
    exact absurd hl (by simp [hfield.plain])
  | logical hop hbranches =>
    refine ⟨fun _ => Or.inl ⟨_, hop, rfl⟩, fun _ items hitems fields hf field hmem => ?_⟩
    have hfield := hbranches items hitems fields hf field hmem
    exact ⟨hfield.plain, ConfinedField.fields_eq_none hfield hlisted⟩
  | escaped hescape hop =>
    refine ⟨fun hname => absurd hname (not_isReserved_escaped _), fun hl => ?_⟩
    exact absurd hl (by simp [isLogicalToken_escaped])

/-- A list of fields without reserved names, an operator that is refused and one that is escaped. -/
def listed : Validator := ⟨[.value .equals, .logical .or], some ["age", "name"], .remove, true⟩

/-- Operators that the check does not know, beside a field, in its conditions, and in branches. -/
def intruding : Value :=
  .object [("$where", .string "1"), ("name", .object [("$eq", .string "Tom"), ("$where", .null)]),
    ("$and", .list [.object [("$where", .string "1")]]),
    ("$or", .list [.object [("age", .object [("$eq", .int 3)]), ("$nor", .list [])], .string "$"])]

def cleaned : Value :=
  .object [("name", .object [("$eq", .string "Tom")]),
    ("\\$and", .list [.object [("$where", .string "1")]]),
    ("$or", .list [.object [("age", .object [("$eq", .int 3)])], .string "$"])]

theorem reserved_of_validate_intruding :
    listed.policy ≠ .keep ∧
    (∀ fields, listed.fields = some fields → ∀ name ∈ fields, ¬ IsReserved name) ∧
    listed.validate intruding = .ok cleaned ∧
    ∃ query, StoreQuery.ofTree cleaned = .ok query ∧ ∀ entry ∈ query, IsReserved entry.1 →
      ∃ op, .logical op ∈ listed.operators ∧ entry.1 = (Operator.logical op).token := by
  have hlisted : ∀ fields, listed.fields = some fields → ∀ name ∈ fields, ¬ IsReserved name := by
    rintro _ ⟨⟩
    decide
  have hresult : listed.validate intruding = .ok cleaned := rfl
  obtain ⟨query, hquery, hnames⟩ := reserved_of_validate (by decide) hlisted hresult
  refine ⟨by decide, hlisted, hresult, query, hquery, fun entry he hname => ?_⟩
  exact ((hnames entry he).1 hname).resolve_right fun h => by cases h.1

/-- Without a list of fields an operator that the check does not know passes for a field, and so it
does in a branch. -/
theorem reserved_without_list :
    let v : Validator := ⟨Operator.all, none, .remove, false⟩
    let tree : Value :=
      .object [("$where", .string "1"), ("$or", .list [.object [("$where", .string "1")]])]
    v.validate tree = .ok tree ∧
    StoreQuery.ofTree tree =
      .ok [("$where", .string "1"), ("$or", .list [.object [("$where", .string "1")]])] ∧
    IsReserved "$where" ∧ ∀ op : Operator, op.token ≠ "$where" := by
  refine ⟨rfl, rfl, by decide, fun op => ?_⟩
  rcases op with op | op | op <;> cases op <;> decide

end Validator

end DocumentApi
