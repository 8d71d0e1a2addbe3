import DocumentApi.Proofs.Filter.Soundness

/-!
The names that are left in a filter that was checked, unless refused entries stay in it: allowed
operators of allowed fields, allowed logical operators over branches of such fields, and escaped
operators. A query has entries of the same kinds. Main statement: `allowed_of_validate`.
-/

set_option autoImplicit false

namespace DocumentApi

/-- A field of a filter or a query: its name, and the names of its conditions if it has any. -/
structure FieldEntry (named condition : String → Prop) (field : String × Value) : Prop where
  plain : Operator.isLogicalToken field.1 = false
  named : named field.1
  conditions : ∀ conditions, field.2 = .object conditions → ∀ c ∈ conditions, condition c.1

/-- An entry of a filter or a query: a field, an allowed logical operator over filters of fields, or
an escaped operator. -/
inductive FilterEntry (operators : List Operator) (escape : Bool) (field : String × Value → Prop) :
    String × Value → Prop where
  | field {entry : String × Value} (h : field entry) : FilterEntry operators escape field entry
  | logical {op : LogicalOperator} {value : Value} (hop : .logical op ∈ operators)
      (h : ∀ items, value = .list items → ∀ fields, .object fields ∈ items → ∀ f ∈ fields, field f) :
      FilterEntry operators escape field ((Operator.logical op).token, value)
  | escaped {op : LogicalOperator} {value : Value} (hescape : escape)
      (hop : .logical op ∉ operators) :
      FilterEntry operators escape field ("\\" ++ (Operator.logical op).token, value)

theorem FieldEntry.imp {named condition named' condition' : String → Prop}
    (hnamed : ∀ name, named name → named' name)
    (hcondition : ∀ name, condition name → condition' name) {field : String × Value}
    (h : FieldEntry named condition field) : FieldEntry named' condition' field :=
  ⟨h.plain, hnamed _ h.named, fun _ hc c hmem => hcondition _ (h.conditions _ hc c hmem)⟩

theorem FilterEntry.imp {operators : List Operator} {escape : Bool}
    {field field' : String × Value → Prop} (hfield : ∀ f, field f → field' f)
    {entry : String × Value} (h : FilterEntry operators escape field entry) :
    FilterEntry operators escape field' entry := by
  cases h with
  | field h => exact .field (hfield _ h)
  | logical hop h =>
    exact .logical hop fun items hi fields hf f hmem => hfield f (h items hi fields hf f hmem)
  | escaped hescape hop => exact .escaped hescape hop

namespace Validator

variable {v : Validator}

def AllowedToken (v : Validator) (token : String) : Prop :=
  ∃ op ∈ v.operators, op.isLogical = false ∧ op.token = token

abbrev AllowedField (v : Validator) : String × Value → Prop :=
  FieldEntry (fun name => v.allowsField name) v.AllowedToken

abbrev AllowedEntry (v : Validator) : String × Value → Prop :=
  FilterEntry v.operators v.escape v.AllowedField

theorem SoundCondition.allowed {c : String × Value} (h : v.SoundCondition c) :
    v.AllowedToken c.1 := by
  cases h with
  | value hop hvalue => exact ⟨_, hop, rfl, rfl⟩
  | list hop => exact ⟨_, hop, rfl, rfl⟩

theorem SoundField.allowed {field : String × Value} (h : v.SoundField field) :
    v.AllowedField field :=
  ⟨h.plain, h.named, fun conditions hc c hmem => (h.conditions conditions hc c hmem).allowed⟩

theorem SoundEntry.allowed {given : Record Value} {entry : String × Value}
    (h : v.SoundEntry given entry) : v.AllowedEntry entry := by
  cases h with
  | field h => exact .field h.allowed
  | logical hop hconditions hbranches =>
    exact .logical hop fun items hi fields hf field hmem =>
      (hbranches items hi fields hf field hmem).allowed
  | escaped hescape hop hgiven => exact .escaped hescape hop

theorem visitFields_allowed (hp : v.policy ≠ .keep) {fields : List (String × Value)}
    {kept : Record Value} (h : v.visitFields fields [] = .ok kept) :
    ∀ entry ∈ kept, v.AllowedEntry entry := fun entry he =>
  (visitFields_sound hp fields (fun _ => id) h (by simp) entry he).allowed

theorem allowed_of_validate (hp : v.policy ≠ .keep) {tree result : Value}
    (h : v.validate tree = .ok result) :
    result = .null ∨ ∃ filter, result = .object filter ∧ ∀ entry ∈ filter, v.AllowedEntry entry := by
  unfold validate at h
  split at h
  · cases h
    exact Or.inl rfl
  · obtain ⟨filter, hvisit, rfl⟩ := Answer.map_eq_ok.mp h
    exact Or.inr ⟨filter, rfl, visitFields_allowed hp hvisit⟩
  · split at h
    · cases h
    · cases h
      exact Or.inr ⟨[], rfl, by simp⟩
    · rename_i hkeep
      exact absurd hkeep hp

end Validator

end DocumentApi
