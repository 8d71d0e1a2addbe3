import DocumentApi.Operator
import DocumentApi.Value.Display

/-!
Filters, sort tokens and field lists in the query language of the store. Each operator of a field
becomes a clause; then clauses that the store would take only once are merged, the merged one last.
-/

set_option autoImplicit false

namespace DocumentApi.StoreQuery

def patternSpecials : List Char := "()[]\x7b\x7d?*+-|^$\\.&~# \t\n\r\x0b\x0c".toList

/-- The pattern that matches a text itself. -/
def escapePattern (cs : List Char) : List Char :=
  cs.flatMap fun c => if c ∈ patternSpecials then ['\\', c] else [c]

def patternText : Value → String
  | .null => "null"
  | .bool b => if b then "true" else "false"
  | v => v.text

def literal (v : Value) : String := String.ofList (escapePattern (patternText v).toList)

abbrev Clause := String × Value

/-- One operator and its value, as the store has them; unknown operators stay. -/
def clause (operator : String) (value : Value) : Clause :=
  match Operator.ofToken? operator with
  | some (.value .startWith) => ("$regex", .string ("^" ++ literal value))
  | some (.value .endWith) => ("$regex", .string (literal value ++ "$"))
  | some (.value .regex) => ("$regex", .string (patternText value))
  | some (.value .isNull) => ("$eq", .null)
  | some (.value .isDefined) => ("$ne", .null)
  | some (.value .notEquals) => ("$ne", value)
  | _ => (operator, value)

/-- Several clauses of one operator become a single clause, after all others. -/
def mergeClauses (operator into : String) (combine : List Value → Value) (clauses : List Clause) :
    List Clause :=
  let same := (clauses.filter fun c => c.1 = operator).map (·.2)
  if same.length ≤ 1 then clauses
  else clauses.filter (fun c => c.1 ≠ operator) ++ [(into, combine same)]

theorem mergeClauses_of_length_le {operator into : String} {combine : List Value → Value}
    {clauses : List Clause} (h : ((clauses.filter fun c => c.1 = operator).map (·.2)).length ≤ 1) :
    mergeClauses operator into combine clauses = clauses := by
  simp only [mergeClauses]
  rw [if_pos h]

def patterns (values : List Value) : Value := .list (values.map fun v => .regex v.text)

/-- The values, with the items of lists among them in their place. -/
def flatten (values : List Value) : Value :=
  .list (values.flatMap fun v =>
    match v with
    | .list items => items
    | v => [v])

/-- Patterns must all match, and excluded values become one list of them. -/
def merged (clauses : List Clause) : List Clause :=
  mergeClauses "$nin" "$nin" flatten
    (mergeClauses "$ne" "$nin" .list (mergeClauses "$regex" "$all" patterns clauses))

/-- The conditions of one field; what is no object is a value to be equal to. -/
def ofConditions : Value → Value
  | .object conditions =>
    .object (Record.ofList (merged (conditions.map fun c => clause c.1 c.2)))
  | v => v

def ofBranch : Value → Value
  | .object fields => .object (fields.map fun field => (field.1, ofConditions field.2))
  | v => v

def ofEntry (key : String) (value : Value) : Value :=
  match value with
  | .list items =>
    if Operator.isLogicalToken key then .list (items.map ofBranch) else ofConditions value
  | _ => ofConditions value

def ofFilter (filter : Record Value) : Record Value :=
  filter.map fun entry => (entry.1, ofEntry entry.1 entry.2)

/-- The query of a tree, which must be an object unless there is none. -/
def ofTree : Value → Answer (Record Value)
  | .null => .ok []
  | .object filter => .ok (ofFilter filter)
  | _ => .error .notARecord

def sortKey (token : String) : String × Int :=
  match token.toList with
  | '-' :: field => (String.ofList field, -1)
  | _ => (token, 1)

/-- The sort order of tokens; a field named again keeps its rank and takes the new direction. -/
def ofSort (tokens : List String) : Record Int := Record.ofList (tokens.map sortKey)

/-- The fields to read; none, like no list at all, stands for every field. -/
def ofFields (fields : Option (List String)) : Option (Record Value) :=
  match fields with
  | none | some [] => none
  | some fields => some (Record.ofList (fields.map fun field => (field, .int 1)))

end DocumentApi.StoreQuery
