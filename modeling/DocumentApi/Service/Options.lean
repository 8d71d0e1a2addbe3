import DocumentApi.Filter.Validator
import DocumentApi.Page

/-!
The settings of a resource: which operations are offered, how long pages are, which operators
filters may use and what is done with others. Settings are read from an object; what is wrong with
them is told by the places where it stands, all at once.
-/

set_option autoImplicit false

namespace DocumentApi

inductive Operation where
  | list | get | create | update | delete
deriving DecidableEq, Repr, Inhabited

namespace Operation

def all : List Operation := [list, get, create, update, delete]

def name : Operation → String
  | list => "list"
  | get => "get"
  | create => "create"
  | update => "update"
  | delete => "delete"

def isRead : Operation → Bool
  | list | get => true
  | _ => false

end Operation

structure DisabledOperations where
  list : Bool
  get : Bool
  create : Bool
  update : Bool
  delete : Bool
  read : Bool
  write : Bool
deriving DecidableEq, Repr

namespace DisabledOperations

def none : DisabledOperations := ⟨false, false, false, false, false, false, false⟩

def single (d : DisabledOperations) : Operation → Bool
  | .list => d.list
  | .get => d.get
  | .create => d.create
  | .update => d.update
  | .delete => d.delete

def disables (d : DisabledOperations) (op : Operation) : Bool :=
  d.single op || (if op.isRead then d.read else d.write)

end DisabledOperations

/-- Sizes are positive, and the one that pages have by default is allowed. -/
def PageLimits.Valid (limits : PageLimits) : Prop :=
  1 ≤ limits.default ∧ ∀ max ∈ limits.max, 1 ≤ max ∧ limits.default ≤ max

structure Options where
  resourceType : Option String
  disabled : DisabledOperations
  limits : PageLimits
  limits_valid : limits.Valid
  operators : List Operator
  escapeLogical : Bool
  stopOnInvalid : Bool
  problemTypeBase : String
  idField : String

namespace Options

theorem standard_valid : PageLimits.standard.Valid := by
  refine ⟨by decide, fun max h => ?_⟩
  obtain rfl : 200 = max := Option.some.inj h
  decide

def standard : Options where
  resourceType := none
  disabled := DisabledOperations.none
  limits := PageLimits.standard
  limits_valid := standard_valid
  operators := Operator.all
  escapeLogical := false
  stopOnInvalid := true
  problemTypeBase := Problem.defaultTypeBase
  idField := "_id"

def policy (o : Options) : RefusalPolicy := if o.stopOnInvalid then .stop else .remove

def isDisabled (o : Options) (op : Operation) : Bool := o.disabled.disables op

/-! Reading. -/

abbrev Location := List String

abbrev Checked (α : Type) := α × List Location

def setting {α : Type} (fields : Record Value) (place : Location) (name : String)
    (read : Value → Option α) (default : α) : Checked α :=
  match fields.get? name with
  | none => (default, [])
  | some v =>
    match read v with
    | some a => (a, [])
    | none => (default, [place ++ [name]])

def readBool : Value → Option Bool
  | .bool b => some b
  | _ => none

def readTextOrNull : Value → Option (Option String)
  | .null => some none
  | .string s => some (some s)
  | _ => none

def readSize : Value → Option Int
  | .int i => if 1 ≤ i then some i else none
  | _ => none

def readSizeOrNull : Value → Option (Option Int)
  | .null => some none
  | v => (readSize v).map some

def group (fields : Record Value) (name : String) : Checked (Record Value) :=
  setting fields [] name Value.object? []

def readDisabled (fields : Record Value) : Checked DisabledOperations :=
  let (group, errors) := group fields "disable"
  let flag name := setting group ["disable"] name readBool false
  (⟨(flag "list").1, (flag "get").1, (flag "create").1, (flag "update").1, (flag "delete").1,
      (flag "read").1, (flag "write").1⟩,
    errors ++ ["list", "get", "create", "update", "delete", "read", "write"].flatMap fun name =>
      (flag name).2)

def validLimits? (limits : PageLimits) : Option { l : PageLimits // l.Valid } :=
  if h : 1 ≤ limits.default ∧ ∀ max ∈ limits.max, 1 ≤ max ∧ limits.default ≤ max then
    some ⟨limits, h⟩
  else none

/-- The limits of pages; the sizes are wrong together only if neither is wrong alone. -/
def readLimits (fields : Record Value) : Checked { l : PageLimits // l.Valid } :=
  let (group, errors) := group fields "page_size"
  let default := setting group ["page_size"] "default" readSize PageLimits.standard.default
  let max := setting group ["page_size"] "max" readSizeOrNull PageLimits.standard.max
  let standard := ⟨PageLimits.standard, standard_valid⟩
  match errors ++ default.2 ++ max.2, validLimits? ⟨default.1, max.1⟩ with
  | [], some limits => (limits, [])
  | [], none => (standard, [["page_size"]])
  | errors, _ => (standard, errors)

/-- The tokens that a value lists: items, characters or names. -/
def tokens? : Value → Option (List Value)
  | .list items => some items
  | .string s => some (s.toList.map fun c => .string (String.ofList [c]))
  | .object fields => some (fields.map fun field => .string field.1)
  | _ => none

def readOperators (fields : Record Value) : Answer (Checked (List Operator)) :=
  match fields.get? "operators" with
  | none => .ok (Operator.all, [])
  | some v =>
    match tokens? v with
    | none => .error .wrongType
    | some tokens =>
      match tokens.mapM Operator.ofValue? with
      | some operators => .ok (operators, [])
      | none => .ok ([], [["operators"]])

/-- The settings of an object; names that are not known are passed over. -/
def ofRecord (fields : Record Value) : Answer Options := do
  let resourceType := setting fields [] "resource_type" readTextOrNull none
  let disabled := readDisabled fields
  let limits := readLimits fields
  let operators ← readOperators fields
  let validator := group fields "operator_validator"
  let flag name default := setting validator.1 ["operator_validator"] name readBool default
  let escape := flag "escape_invalid_logical_operator" false
  let stop := flag "throw_on_invalid_operator" true
  let base := setting fields [] "problem_type_base_url" Value.string? Problem.defaultTypeBase
  let idField := setting fields [] "id_field" Value.string? "_id"
  match resourceType.2 ++ disabled.2 ++ limits.2 ++ operators.2 ++ validator.2 ++ escape.2 ++ stop.2
      ++ base.2 ++ idField.2 with
  | [] =>
    return ⟨resourceType.1, disabled.1, limits.1.1, limits.1.2, operators.1, escape.1, stop.1,
      base.1, idField.1⟩
  | errors => throw (.badOptions errors)

end Options

end DocumentApi
