import DocumentApi.Failure

/-!
The operators that a filter may use, by the tokens that clients write: comparisons with one value,
comparisons with a list of values, and logical combinations of whole filters.
-/

set_option autoImplicit false

namespace DocumentApi

inductive ValueOperator where
  | equals | notEquals | greaterThan | greaterOrEquals | lowerThan | lowerOrEquals
  | startWith | endWith | regex | isNull | isDefined
deriving DecidableEq, Repr, Inhabited

inductive ListOperator where
  | isIn | notIn
deriving DecidableEq, Repr, Inhabited

inductive LogicalOperator where
  | or | and
deriving DecidableEq, Repr, Inhabited

inductive Operator where
  | value (op : ValueOperator)
  | list (op : ListOperator)
  | logical (op : LogicalOperator)
deriving DecidableEq, Repr, Inhabited

namespace Operator

def all : List Operator :=
  [.value .equals, .value .notEquals, .value .greaterThan, .value .greaterOrEquals,
    .value .lowerThan, .value .lowerOrEquals, .value .startWith, .value .endWith, .value .regex,
    .value .isNull, .value .isDefined, .list .isIn, .list .notIn, .logical .or, .logical .and]

theorem mem_all (op : Operator) : op ∈ all := by
  rcases op with op | op | op <;> cases op <;> decide

def token : Operator → String
  | value .equals => "$eq"
  | value .notEquals => "$neq"
  | value .greaterThan => "$gt"
  | value .greaterOrEquals => "$gte"
  | value .lowerThan => "$lt"
  | value .lowerOrEquals => "$lte"
  | value .startWith => "$start"
  | value .endWith => "$end"
  | value .regex => "$regex"
  | value .isNull => "$null"
  | value .isDefined => "$def"
  | list .isIn => "$in"
  | list .notIn => "$nin"
  | logical .or => "$or"
  | logical .and => "$and"

def ofToken? (s : String) : Option Operator := all.find? fun op => op.token = s

theorem ofToken?_token (op : Operator) : ofToken? op.token = some op := by
  rcases op with op | op | op <;> cases op <;> decide

theorem token_of_ofToken? {s : String} {op : Operator} (h : ofToken? s = some op) :
    op.token = s := by
  simpa using List.find?_some h

def ofValue? : Value → Option Operator
  | .string s => ofToken? s
  | _ => none

def ofValue (v : Value) : Answer Operator :=
  match ofValue? v with
  | some op => .ok op
  | none => .error (.unknownOperator v)

def isLogical : Operator → Bool
  | logical _ => true
  | _ => false

def isList : Operator → Bool
  | list _ => true
  | _ => false

def isValue : Operator → Bool
  | value _ => true
  | _ => false

def isLogicalToken (s : String) : Bool := (ofToken? s).any isLogical

theorem isLogicalToken_iff {s : String} :
    isLogicalToken s ↔ ∃ op, ofToken? s = some (.logical op) := by
  cases h : ofToken? s with
  | none => simp [isLogicalToken, h]
  | some op => cases op <;> simp [isLogicalToken, h, isLogical]

def description : Operator → String
  | value .equals => "Equals to"
  | value .notEquals => "Not equals to"
  | value .greaterThan => "Greater than"
  | value .greaterOrEquals => "Greater than or equals to"
  | value .lowerThan => "Lower than"
  | value .lowerOrEquals => "Lower than or equals to"
  | value .startWith => "Starts with (string only)"
  | value .endWith => "Ends with (string only)"
  | value .regex => "Matches the regular expression"
  | value .isNull => "Is null (the value is ignored)"
  | value .isDefined => "Is defined, not null (the value is ignored)"
  | list .isIn => "Is one of the values"
  | list .notIn => "Is none of the values"
  | logical .or => "Must validate at least one expression"
  | logical .and => "Must validate all expressions"

def descriptionLine (op : Operator) : String := "- `" ++ op.token ++ "`: " ++ op.description

def headings : List (String × (Operator → Bool)) :=
  [("Values operators", isValue), ("List operators", isList), ("Logical operators", isLogical)]

def section? (ops : List Operator) (heading : String × (Operator → Bool)) : Option String :=
  match ops.filter heading.2 with
  | [] => none
  | chosen =>
    some ("**" ++ heading.1 ++ "**\n\n" ++ String.intercalate "\n" (chosen.map descriptionLine))

def describe (ops : List Operator) : String :=
  String.intercalate "\n\n" (headings.filterMap (section? ops))

end Operator

end DocumentApi
