import DocumentApi.Value

/-!
Dotted paths of the fields of a document, from a description of its model or from an example.
-/

set_option autoImplicit false

namespace DocumentApi

inductive FieldShape where
  | leaf
  | model (fields : List (String × FieldShape))
deriving Repr, Inhabited

namespace FieldShape

mutual

def paths (name : String) : FieldShape → List String
  | leaf => [name]
  | model fields => (modelPaths fields).map fun path => name ++ "." ++ path

def modelPaths : List (String × FieldShape) → List String
  | [] => []
  | (name, shape) :: rest => paths name shape ++ modelPaths rest

end

end FieldShape

/-- The name of a field in its model, and the name that it goes by outside if it is given one. -/
structure FieldName where
  own : String
  alias? : Option String
deriving DecidableEq, Repr, Inhabited

/-- An empty alias is none. -/
def FieldName.shown (name : FieldName) : String :=
  (name.alias?.filter (· ≠ "")).getD name.own

/-- What a field of a model is declared to hold. -/
inductive FieldType where
  | plain
  | optional (type : FieldType)
  | list (item : FieldType)
  | model (fields : List (FieldName × FieldType))
deriving Repr, Inhabited

namespace FieldType

mutual

/-- Only a field that is declared to hold a model has fields of its own; one that may be missing and
one in a list have none. -/
def shape : FieldType → FieldShape
  | model fields => .model (shapes fields)
  | _ => .leaf

def shapes : List (FieldName × FieldType) → List (String × FieldShape)
  | [] => []
  | (name, type) :: rest => (name.shown, shape type) :: shapes rest

end

end FieldType

/-- The fields that a model declares, in order. -/
abbrev Model := List (FieldName × FieldType)

def Model.keys (model : Model) : List String := FieldShape.modelPaths (FieldType.shapes model)

namespace Value

mutual

/-- The paths of a field that holds the value; only objects have fields of their own. -/
def paths (withParent : Bool) (name : String) : Value → List String
  | object fields =>
    (if withParent then [name] else [])
      ++ (fieldPaths withParent fields).map fun path => name ++ "." ++ path
  | _ => [name]

def fieldPaths (withParent : Bool) : List (String × Value) → List String
  | [] => []
  | (name, value) :: rest => paths withParent name value ++ fieldPaths withParent rest

end

end Value

end DocumentApi
