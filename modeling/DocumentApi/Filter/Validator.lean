import DocumentApi.Operator

/-!
The check of a filter against the operators and fields that clients may use. A filter maps fields to
conditions, which map operators to values, and logical operators to lists of further filters; those
may use no logical operator themselves. An entry that is refused stops the check, is left out, or
stays as it is, as the policy says.
-/

set_option autoImplicit false

namespace DocumentApi

inductive RefusalPolicy where
  | stop
  | remove
  | keep
deriving DecidableEq, Repr, Inhabited

namespace RefusalPolicy

def name : RefusalPolicy → String
  | stop => "throw"
  | remove => "remove"
  | keep => "do_nothing"

def ofName (s : String) : Answer RefusalPolicy :=
  match [stop, remove, keep].find? fun policy => policy.name = s with
  | some policy => .ok policy
  | none => .error (.unknownAction s)

/-- The outcome for a refused entry that would stay as `kept`. -/
def refuse {α : Type} (policy : RefusalPolicy) (p : Problem) (kept : α) : Answer (Option α) :=
  match policy with
  | stop => .error (.problem p)
  | remove => .ok none
  | keep => .ok (some kept)

end RefusalPolicy

structure Validator where
  operators : List Operator
  /-- The fields that may be named; any field if there is no list. -/
  fields : Option (List String)
  policy : RefusalPolicy
  /-- Whether a refused logical operator becomes the name of a field instead. -/
  escape : Bool
deriving DecidableEq, Repr

namespace Validator

def ofTokens (tokens : List Value) (fields : Option (List String)) (policy : String)
    (escape : Bool) : Answer Validator := do
  let operators ← tokens.mapM Operator.ofValue
  return ⟨operators, fields, ← RefusalPolicy.ofName policy, escape⟩

def allowsField (v : Validator) (field : String) : Bool :=
  v.fields.all fun fields => field ∈ fields

def branch (v : Validator) : Validator :=
  { v with operators := v.operators.filter fun op => !op.isLogical, escape := false }

/-- Whether the filters that are combined are checked just like the whole. -/
def isOwnBranch (v : Validator) : Bool := !v.escape && v.operators.all fun op => !op.isLogical

theorem branch_eq_self {v : Validator} (h : v.isOwnBranch) : v.branch = v := by
  simp only [isOwnBranch, Bool.and_eq_true, Bool.not_eq_true'] at h
  obtain ⟨he, ho⟩ := h
  obtain ⟨operators, fields, policy, escape⟩ := v
  simp_all [branch]

theorem isOwnBranch_branch (v : Validator) : v.branch.isOwnBranch := by
  simp [isOwnBranch, branch]

/-- What becomes of a key: the key to write, and whether its value is looked into. -/
structure Kept where
  key : String
  visited : Bool
deriving DecidableEq, Repr

def checkKey (v : Validator) (key : String) : Answer (Option Kept) :=
  match Operator.ofToken? key with
  | some (.logical op) =>
    if .logical op ∈ v.operators then .ok (some ⟨key, true⟩)
    else if v.escape then .ok (some ⟨"\\" ++ key, false⟩)
    else v.policy.refuse (Problem.operatorRefused key true) ⟨key, true⟩
  | _ =>
    if v.allowsField key then .ok (some ⟨key, true⟩)
    else v.policy.refuse (Problem.fieldRefused key) ⟨key, true⟩

/-- The check of one operator of a field, which gives the value to write. A single value where a
list is due is read as a list of one. -/
def checkCondition (v : Validator) (key : String) (value : Value) : Answer (Option Value) :=
  match Operator.ofToken? key with
  | some (.list op) =>
    if .list op ∉ v.operators then v.policy.refuse (Problem.operatorRefused key false) value
    else if value.isPrimitive then .ok (some (.list [value]))
    else
      match value with
      | .list _ => .ok (some value)
      | _ => v.policy.refuse (Problem.operatorValueRefused key "an array" value) value
  | some (.value op) =>
    if .value op ∉ v.operators then v.policy.refuse (Problem.operatorRefused key false) value
    else if value.isPrimitive then .ok (some value)
    else v.policy.refuse (Problem.operatorValueRefused key "a primitive" value) value
  | _ => v.policy.refuse (Problem.operatorRefused key false) value

def checkConditions (v : Validator) : List (String × Value) → Answer (List (String × Value))
  | [] => .ok []
  | (key, value) :: rest => do
    match ← checkCondition v key value with
    | none => checkConditions v rest
    | some value => return (key, value) :: (← checkConditions v rest)

mutual

def visit (v : Validator) (key : String) : Value → Answer Value
  | .object conditions => .object <$> checkConditions v conditions
  | .list items =>
    if Operator.isLogicalToken key then .list <$> visitBranches v items else .ok (.list items)
  | value => .ok value

def visitBranches (v : Validator) : List Value → Answer (List Value)
  | [] => .ok []
  | item :: rest => do return (← visitBranch v item) :: (← visitBranches v rest)

def visitBranch (v : Validator) : Value → Answer Value
  | .object fields => .object <$> visitBranchFields v fields []
  | value => .ok value

/-- The entries of a branch, each of them checked as a filter of its own. -/
def visitBranchFields (v : Validator) :
    List (String × Value) → Record Value → Answer (Record Value)
  | [], checked => .ok checked
  | field :: rest, checked => do
    match ← visitField v.branch field [] with
    | [] => visitBranchFields v rest checked
    | [(key, value)] => visitBranchFields v rest (checked.set key value)
    | _ => .error .severalEntries

/-- The entries of a filter, added to those already checked. -/
def visitFields (v : Validator) : List (String × Value) → Record Value → Answer (Record Value)
  | [], checked => .ok checked
  | field :: rest, checked => do visitFields v rest (← visitField v field checked)

/-- One entry of a filter, added to those already checked unless it is left out. -/
def visitField (v : Validator) : String × Value → Record Value → Answer (Record Value)
  | (key, value), checked => do
    match ← checkKey v key with
    | none => return checked
    | some kept =>
      let value ← if kept.visited then visit v kept.key value else .ok value
      return checked.set kept.key value

end

theorem visitFields_singleton (v : Validator) (field : String × Value) (checked : Record Value) :
    v.visitFields [field] checked = v.visitField field checked := by
  rw [visitFields]
  cases v.visitField field checked <;> rfl

/-- A filter of one entry leaves one entry or none, so the entries of a branch add up to the branch
checked as a whole. -/
theorem visitBranchFields_eq (v : Validator) (fields : List (String × Value))
    (checked : Record Value) :
    v.visitBranchFields fields checked = v.branch.visitFields fields checked := by
  induction fields generalizing checked with
  | nil => rfl
  | cons field rest ih =>
    obtain ⟨key, value⟩ := field
    rw [visitBranchFields, visitFields, visitField, visitField]
    cases v.branch.checkKey key with
    | error failure => rfl
    | ok kept =>
      cases kept with
      | none => exact ih checked
      | some kept =>
        obtain ⟨found, visited⟩ := kept
        cases visited with
        | false => exact ih (checked.set found value)
        | true =>
          simp only [Answer.ok_bind, if_true]
          cases v.branch.visit found value with
          | error failure => rfl
          | ok left => exact ih (checked.set found left)

theorem visitBranch_object (v : Validator) (fields : List (String × Value)) :
    v.visitBranch (.object fields) = .object <$> v.branch.visitFields fields [] := by
  rw [visitBranch, visitBranchFields_eq]

def validate (v : Validator) : Value → Answer Value
  | .null => .ok .null
  | .object fields => .object <$> visitFields v fields []
  | tree =>
    match v.policy with
    | .stop => .error (.ofProblem .filter "The filters MUST be an object")
    | .remove => .ok (.object [])
    | .keep => .ok tree

end Validator

end DocumentApi
