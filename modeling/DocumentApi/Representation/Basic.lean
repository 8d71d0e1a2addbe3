import DocumentApi.Page

/-!
Representations: the formats in which documents are shown and bodies are read. A representation
offers what it can of four capabilities, and a schema for each kind of body.
-/

set_option autoImplicit false

namespace DocumentApi

inductive Capability where
  | renderOne | renderPage | parseCreate | parseUpdate
deriving DecidableEq, Repr, Inhabited

structure OneToRender where
  id : String
  resourceType : String
  url : String
  document : Document
deriving DecidableEq, Repr

/-- A page of documents by their identifiers, out of `count` in all. -/
structure PageToRender where
  resourceType : String
  url : String
  count : Int
  page : PageRequest
  documents : Record Document
deriving DecidableEq, Repr

structure BodyToCreate where
  body : Value
  resourceType : String
deriving DecidableEq, Repr

structure BodyToUpdate where
  body : Value
  resourceType : String
  id : String
deriving DecidableEq, Repr

namespace Capability

def all : List Capability := [renderOne, renderPage, parseCreate, parseUpdate]

def name : Capability → String
  | renderOne => "render_one"
  | renderPage => "render_page"
  | parseCreate => "parse_create"
  | parseUpdate => "parse_update"

def ofName (s : String) : Answer Capability :=
  match all.find? fun c => c.name = s with
  | some c => .ok c
  | none => .error (.unknownCapability s)

abbrev Input : Capability → Type
  | renderOne => OneToRender
  | renderPage => PageToRender
  | parseCreate => BodyToCreate
  | parseUpdate => BodyToUpdate

end Capability

abbrev SchemaOf := Value → String → Value

structure Representation where
  contentType : String
  function? : (c : Capability) → Option (c.Input → Answer Value)
  oneSchema : Option SchemaOf
  pageSchema : Option SchemaOf
  createSchema : Option SchemaOf
  updateSchema : Option SchemaOf

namespace Representation

def supports (r : Representation) (c : Capability) : Bool := (r.function? c).isSome

end Representation

def withoutNull (fields : Record Value) : Record Value := fields.filter fun field => field.2 ≠ .null

/-! Pieces of schemas. -/

namespace Schema

def ofType (name : String) : Value := .object [("type", .string name)]

def text : Value := ofType "string"

def integer : Value := ofType "integer"

def anyObject : Value := ofType "object"

def textOr (default : String) : Value :=
  .object [("type", .string "string"), ("default", .string default)]

def object (properties : Record Value) : Value :=
  .object [("type", .string "object"), ("properties", .object properties)]

def names (required : List String) : Value := .list (required.map .string)

def objectWith (properties : Record Value) (required : List String) : Value :=
  .object [("type", .string "object"), ("properties", .object properties),
    ("required", names required)]

def array (items : Value) : Value := .object [("type", .string "array"), ("items", items)]

def allOf (schemas : List Value) : Value := .object [("allOf", .list schemas)]

end Schema

end DocumentApi
