import DocumentApi.Proofs.Filter.Clauses

/-!
What a filter and its query say of a document. Both are read alike down to the conditions of one
field: a filter's conditions are read operator by operator, a query's clause by clause. What single
clauses mean is left to the store, except that a list of excluded values excludes each of them, and
a list of patterns asks for each of them.
-/

set_option autoImplicit false

namespace DocumentApi

namespace Value

def list? : Value → Option (List Value)
  | list items => some items
  | _ => none

theorem eq_object_of_mem {v : Value} {fields : Record Value} (h : fields ∈ v.object?) :
    v = object fields := by
  cases v <;> simp_all [object?]

theorem eq_list_of_mem {v : Value} {items : List Value} (h : items ∈ v.list?) :
    v = list items := by
  cases v <;> simp_all [list?]

end Value

namespace StoreQuery

/-- What single clauses on a field say of a document. -/
structure Interpretation where
  holds : Document → String → Clause → Prop
  holds_notIn : ∀ (d : Document) (field : String) (values : List Value),
    holds d field ("$nin", .list values) ↔ ∀ v ∈ values, holds d field ("$ne", v)
  holds_all : ∀ (d : Document) (field : String) (patterns : List String), patterns ≠ [] →
    (holds d field ("$all", .list (patterns.map .regex)) ↔
      ∀ p ∈ patterns, holds d field ("$regex", .string p))

namespace Interpretation

/-- The conditions of a query on a field: all clauses, or a value to be equal to. -/
def meets (I : Interpretation) (d : Document) (field : String) : Value → Prop
  | .object (c :: rest) => ∀ clause ∈ c :: rest, I.holds d field clause
  | v => I.holds d field ("$eq", v)

/-- The conditions of a filter on a field: all operators, or a value to be equal to. -/
def satisfies (I : Interpretation) (d : Document) (field : String) : Value → Prop
  | .object (c :: rest) =>
    ∀ condition ∈ c :: rest, ∀ op, Operator.ofToken? condition.1 = some op →
      I.holds d field (readOperator op condition.2)
  | v => I.holds d field ("$eq", v)

end Interpretation

/-! Filters and queries above the conditions of one field. -/

section Reading
variable (reads : String → Value → Prop)

def branchHolds : Value → Prop
  | .object fields => ∀ field ∈ fields, reads field.1 field.2
  | _ => False

/-- Some branch or every branch under a logical operator, else the conditions of a field. -/
def entryHolds (key : String) (value : Value) : Prop :=
  match Operator.ofToken? key, value with
  | some (.logical .or), .list branches => ∃ branch ∈ branches, branchHolds reads branch
  | some (.logical .and), .list branches => ∀ branch ∈ branches, branchHolds reads branch
  | _, value => reads key value

def recordHolds (tree : Record Value) : Prop := ∀ entry ∈ tree, entryHolds reads entry.1 entry.2

end Reading

def Accepts (I : Interpretation) (query : Record Value) (d : Document) : Prop :=
  recordHolds (I.meets d) query

def Describes (I : Interpretation) (filter : Record Value) (d : Document) : Prop :=
  recordHolds (I.satisfies d) filter

/-! Well-formed filters. -/

/-- Whether an operator of a field is given what it takes: one value, or a list of them. -/
def takes : Operator → Value → Bool
  | .value _, v => v.isPrimitive
  | .list _, .list _ => true
  | _, _ => false

structure ValidConditions (conditions : Record Value) : Prop where
  nonempty : conditions ≠ []
  distinct : conditions.names.Nodup
  known : ∀ c ∈ conditions, ∃ op ∈ Operator.ofToken? c.1, takes op c.2
  /-- Both would be the same clause of the store. -/
  equals_or_null : "$eq" ∉ conditions.names ∨ "$null" ∉ conditions.names

instance (conditions : Record Value) : Decidable (ValidConditions conditions) :=
  decidable_of_iff
    (conditions ≠ [] ∧ conditions.names.Nodup ∧
      (∀ c ∈ conditions, ∃ op ∈ Operator.ofToken? c.1, takes op c.2) ∧
      ("$eq" ∉ conditions.names ∨ "$null" ∉ conditions.names))
    ⟨fun ⟨h1, h2, h3, h4⟩ => ⟨h1, h2, h3, h4⟩, fun ⟨h1, h2, h3, h4⟩ => ⟨h1, h2, h3, h4⟩⟩

def ValidField (key : String) (value : Value) : Prop :=
  ¬ Operator.isLogicalToken key ∧ ∃ conditions ∈ value.object?, ValidConditions conditions

instance (key : String) (value : Value) : Decidable (ValidField key value) :=
  inferInstanceAs (Decidable (_ ∧ _))

def ValidBranch (branch : Value) : Prop :=
  ∃ fields ∈ branch.object?, ∀ field ∈ fields, ValidField field.1 field.2

instance (branch : Value) : Decidable (ValidBranch branch) :=
  inferInstanceAs (Decidable (∃ fields ∈ branch.object?, ∀ field ∈ fields, _))

def ValidEntry (key : String) (value : Value) : Prop :=
  if Operator.isLogicalToken key then ∃ branches ∈ value.list?, ∀ branch ∈ branches, ValidBranch branch
  else ValidField key value

instance (key : String) (value : Value) : Decidable (ValidEntry key value) :=
  inferInstanceAs (Decidable (ite _ _ _))

def ValidFilter (filter : Record Value) : Prop := ∀ entry ∈ filter, ValidEntry entry.1 entry.2

instance (filter : Record Value) : Decidable (ValidFilter filter) :=
  inferInstanceAs (Decidable (∀ entry ∈ filter, _))

end StoreQuery

end DocumentApi
