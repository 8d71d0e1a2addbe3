import DocumentApi.FieldPath
import DocumentApi.Filter.Validator

/-!
The fields of a resource that clients may filter by, sort by and ask for. A missing list allows
every field.
-/

set_option autoImplicit false

namespace DocumentApi

structure Whitelist where
  filterable : Option (List String)
  sortable : Option (List String)
  projectable : Option (List String)
deriving DecidableEq, Repr, Inhabited

namespace Whitelist

def unrestricted : Whitelist := ⟨none, none, none⟩

def ofFields (fields : List String) : Whitelist := ⟨some fields, some fields, some fields⟩

def ofModel (model : Model) : Whitelist := ofFields model.keys

def allows (fields : Option (List String)) (field : String) : Bool :=
  fields.all fun fields => field ∈ fields

def allowFilter (w : Whitelist) (field : String) : Answer Unit :=
  if allows w.filterable field then .ok () else .error (.problem (Problem.fieldRefused field))

def refusal (field purpose : String) : Failure :=
  .ofProblem .fieldNotAllowed ("The field \"" ++ field ++ "\" is not " ++ purpose)

def allowSort (w : Whitelist) (field : String) : Answer Unit :=
  if allows w.sortable field then .ok () else .error (refusal field "sortable")

def allowProject (w : Whitelist) (field : String) : Answer Unit :=
  if allows w.projectable field then .ok () else .error (refusal field "projectable")

/-- The field of a sort token, which a minus in front makes descending. -/
def sortField (token : String) : String :=
  match token.toList with
  | '-' :: field => String.ofList field
  | _ => token

/-- The elements that pass, or all of them if refused ones are kept. -/
def select (policy : RefusalPolicy) (allow : String → Answer Unit) :
    List String → Answer (List String)
  | [] => .ok []
  | name :: rest =>
    match allow name, policy with
    | .error failure, .stop => .error failure
    | .error _, .remove => select policy allow rest
    | _, _ => (name :: ·) <$> select policy allow rest

def filterSort (w : Whitelist) (policy : RefusalPolicy) (tokens : Option (List String)) :
    Answer (Option (List String)) :=
  tokens.mapM (select policy fun token => w.allowSort (sortField token))

def filterProjection (w : Whitelist) (policy : RefusalPolicy) (fields : Option (List String)) :
    Answer (Option (List String)) :=
  fields.mapM (select policy w.allowProject)

end Whitelist

end DocumentApi
