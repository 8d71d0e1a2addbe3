import DocumentApi.Filter.DeepObject
import DocumentApi.Filter.Scalar
import DocumentApi.Json.Reader

/-!
The two forms in which a query carries a filter: bracketed names, with or without guessing what the
texts stand for, and JSON text in one parameter.
-/

set_option autoImplicit false

namespace DocumentApi

inductive FilterForm where
  | deepObject (coerced : Bool)
  | json
deriving DecidableEq, Repr, Inhabited

namespace FilterForm

def notAnObject : Failure :=
  .ofProblem .filterText "The \"filters\" parameter MUST be an object"

def readObject (text : String) : Answer (Record Value) :=
  match Json.read text.toList with
  | .ok (.object fields) => .ok fields
  | .ok _ => .error notAnObject
  | .error (.malformed complaint position) =>
    .error (.ofProblem .filterText
      ("Invalid JSON filter: " ++ Json.locatedMessage text.toList complaint position))
  | .error (.number fault) => .error (.numeral text fault)

/-- The filter that a raw parameter carries; nothing and an empty text carry none. -/
def parseJson : Value → Answer (Option (Record Value))
  | .null => .ok none
  | .object fields => .ok (some fields)
  | .string s => if s = "" then .ok none else some <$> readObject s
  | _ => .error notAnObject

def last? (pairs : DeepObject.Pairs) (name : String) : Option Value :=
  (pairs.reverse.find? fun pair => pair.1 = name).map (·.2)

def extract (form : FilterForm) (pairs : DeepObject.Pairs) (key : String) :
    Answer (Option (Record Value)) :=
  match form with
  | deepObject coerced => do
    let found ← DeepObject.decode pairs key
    return if coerced then found.map Value.coerceFields else found
  | json => parseJson ((last? pairs key).getD .null)

end FilterForm

end DocumentApi
