import DocumentApi.Failure
import DocumentApi.Sorting

/-!
Objects written as parameters with bracketed names: `key[a][b]=v`. A name that occurs again, or that
ends in `[]`, makes a list; so does an object whose names are all figures, in their order.
-/

set_option autoImplicit false

namespace DocumentApi.DeepObject

abbrev Pairs := List (String × Value)

/-- The names in brackets that make up a text; `inside` holds an unfinished one in reverse. -/
def segmentsFrom? (inside : Option (List Char)) : List Char → Option (List String)
  | [] => if inside.isNone then some [] else none
  | c :: rest =>
    match inside with
    | none => if c = '[' then segmentsFrom? (some []) rest else none
    | some seen =>
      if c = ']' then (segmentsFrom? none rest).map (String.ofList seen.reverse :: ·)
      else if c = '[' then none
      else segmentsFrom? (some (c :: seen)) rest

def afterKey? (key name : String) : Option (List Char) :=
  if (key.toList ++ ['[']).isPrefixOf name.toList then some (name.toList.drop key.toList.length)
  else none

def segments (key name : String) : Answer (Option (List String)) :=
  match afterKey? key name with
  | none => .ok none
  | some rest =>
    match segmentsFrom? none rest with
    | some names => .ok (some names)
    | none =>
      .error (.ofProblem .filterText ("Malformed query parameter name: " ++ Text.quoted name))

/-- A further value under a name makes a list of all of them. -/
def add (node : Record Value) (name : String) (value : Value) (asList : Bool) : Record Value :=
  match node.get? name with
  | none => node.set name (if asList then .list [value] else value)
  | some (.list items) => node.set name (.list (items ++ [value]))
  | some old => node.set name (.list [old, value])

/-- Adds a value at the end of a path; what stands in the way of the path is replaced. -/
def assign (node : Record Value) (value : Value) (asList : Bool) : List String → Record Value
  | [] => node
  | [last] => add node last value asList
  | name :: rest =>
    let child := ((node.get? name).bind Value.object?).getD []
    node.set name (.object (assign child value asList rest))

/-- Adds a value under the names of a parameter, of which an empty last one asks for a list. -/
def assignNames (node : Record Value) (names : List String) (value : Value) :
    Answer (Record Value) :=
  let asList := names.getLast? = some ""
  let path := if asList then names.dropLast else names
  if path.isEmpty then .error (.ofProblem .filterText "Empty filter parameter name")
  else .ok (assign node value asList path)

def index (field : String × Value) : Answer (Int × Value) :=
  match Numeral.readInt field.1.toList with
  | .ok i => .ok (i, field.2)
  | .error fault => .error (.numeral field.1 fault)

/-- The fields as a list in the order of their names, if those are all figures. -/
def byIndex (fields : Record Value) : Answer Value :=
  if !fields.isEmpty && fields.all fun field => Text.isFigures field.1.toList then do
    let indexed ← fields.mapM index
    return .list ((sortBy (fun i j => decide (i ≤ j)) (·.1) indexed).map (·.2))
  else .ok (.object fields)

mutual

def toLists : Value → Answer Value
  | .list items => .list <$> itemsToLists items
  | .object fields => fieldsToLists fields >>= byIndex
  | v => .ok v

def itemsToLists : List Value → Answer (List Value)
  | [] => .ok []
  | v :: rest => do return (← toLists v) :: (← itemsToLists rest)

def fieldsToLists : List (String × Value) → Answer (List (String × Value))
  | [] => .ok []
  | (name, v) :: rest => do return (name, ← toLists v) :: (← fieldsToLists rest)

end

theorem itemsToLists_eq_self {items : List Value} (h : ∀ v ∈ items, toLists v = .ok v) :
    itemsToLists items = .ok items := by
  induction items with
  | nil => rfl
  | cons v rest ih =>
    rw [itemsToLists, h v List.mem_cons_self, ih fun w hw => h w (List.mem_cons_of_mem v hw)]
    rfl

theorem names_fieldsToLists {fields converted : Record Value}
    (h : fieldsToLists fields = .ok converted) : converted.names = fields.names := by
  induction fields generalizing converted with
  | nil =>
    cases h
    rfl
  | cons field rest ih =>
    obtain ⟨name, v⟩ := field
    rw [fieldsToLists] at h
    obtain ⟨w, -, h⟩ := Answer.bind_eq_ok.mp h
    obtain ⟨others, hothers, h⟩ := Answer.bind_eq_ok.mp h
    cases h
    exact congrArg (name :: ·) (ih hothers)

/-- One parameter more; what is not under the key is passed over. -/
def step (key : String) (found : Option (Record Value)) (pair : String × Value) :
    Answer (Option (Record Value)) := do
  match ← segments key pair.1 with
  | none => return found
  | some names => return some (← assignNames (found.getD []) names pair.2)

/-- The object under a key, or none if no parameter is under it. -/
def decode (pairs : Pairs) (key : String) : Answer (Option (Record Value)) := do
  match ← pairs.foldlM (step key) none with
  | none => return none
  | some root =>
    match ← toLists (.object root) with
    | .object fields => return some fields
    | _ => .error (.ofProblem .filterText ("The \"" ++ key ++ "\" parameter MUST be an object"))

end DocumentApi.DeepObject
