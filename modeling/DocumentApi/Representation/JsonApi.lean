import DocumentApi.PageLinks
import DocumentApi.Representation.Basic

/-!
Documents as resource objects with an identifier, a type and attributes, in the JSON:API format.
Bodies are read in the same form.
-/

set_option autoImplicit false

namespace DocumentApi.Representation.JsonApi

def resource (id resourceType : String) (document : Document) : Value :=
  .object [("id", .string id), ("type", .string resourceType), ("attributes", .object document)]

def renderOne (one : OneToRender) : Answer Value := do
  let url ← RelativeUrl.ofText one.url
  return .object
    [("data", resource one.id one.resourceType one.document),
      ("links", .object [("self", .string url.text)])]

def renderPage (p : PageToRender) : Answer Value := do
  let links ← PageLinks.ofText p.count p.page p.url
  return .object
    [("data", .list (p.documents.map fun d => resource d.1 p.resourceType d.2)),
      ("links", .object (withoutNull
        [("self", .string links.current), ("first", .string links.first),
          ("last", .string links.last), ("next", .ofString? links.next),
          ("prev", .ofString? links.previous)])),
      ("meta", .object
        [("totalCount", .int p.count),
          ("page", .object
            [("size", .int p.page.size), ("count", .int links.totalPages),
              ("current", .int p.page.current)])])]

def refused {α : Type} (detail : String) : Answer α := .error (.ofProblem .body detail)

def readData (body : Value) (resourceType : String) : Answer (Record Value × Record Value) :=
  match body with
  | .object body =>
    match Record.get? body "data" with
    | some (.object data) =>
      if Record.get? data "type" ≠ some (.string resourceType) then
        refused ("The body MUST have a property named 'data.type' with the value '" ++ resourceType
          ++ "'")
      else
        match Record.get? data "attributes" with
        | some (.object attributes) => .ok (data, attributes)
        | _ => refused "The body MUST have a property named \"data.attributes\" of type object"
    | _ => refused "The body MUST have a property named \"data\" of type object"
  | _ => refused "The body MUST defined and of type object"

def parseCreate (b : BodyToCreate) : Answer Value := do
  return .object (← readData b.body b.resourceType).2

def parseUpdate (b : BodyToUpdate) : Answer Value := do
  let (data, attributes) ← readData b.body b.resourceType
  match Record.get? data "id" with
  | some (.string id) =>
    if id = b.id then return .object attributes
    else
      refused ("The Id provided in the property named \"data.id\" must be the same as the id in "
        ++ "the URL path parameter")
  | _ => refused "The body MUST have a property named \"data.id\" of type string"

def function? : (c : Capability) → Option (c.Input → Answer Value)
  | .renderOne => some renderOne
  | .renderPage => some renderPage
  | .parseCreate => some parseCreate
  | .parseUpdate => some parseUpdate

def resourceSchema (schema : Value) (resourceType : String) (required : List String) : Value :=
  Schema.objectWith
    [("type", Schema.textOr resourceType), ("id", Schema.text), ("attributes", schema)] required

def storedSchema (schema : Value) (resourceType : String) : Value :=
  resourceSchema schema resourceType ["type", "id", "attributes"]

def oneSchema : SchemaOf := fun schema resourceType =>
  Schema.objectWith
    [("data", storedSchema schema resourceType),
      ("links", Schema.objectWith [("self", Schema.text)] ["self"]), ("meta", Schema.anyObject)]
    ["data", "links"]

def pageSchema : SchemaOf := fun schema resourceType =>
  Schema.object
    [("data", Schema.array (storedSchema schema resourceType)),
      ("links", Schema.objectWith
        (["self", "next", "prev", "last", "first"].map fun name => (name, Schema.text))
        ["self", "last", "first"]),
      ("meta", Schema.object
        [("totalCount", Schema.integer),
          ("page", Schema.object
            [("count", Schema.integer), ("size", Schema.integer), ("current", Schema.integer)])])]

def createSchema : SchemaOf := fun schema resourceType =>
  Schema.objectWith [("data", resourceSchema schema resourceType ["type", "attributes"])] ["data"]

def updateSchema : SchemaOf := fun schema resourceType =>
  Schema.objectWith [("data", storedSchema schema resourceType)] ["data"]

end JsonApi

def jsonApi : Representation where
  contentType := "application/vnd.api+json"
  function? := JsonApi.function?
  oneSchema := some JsonApi.oneSchema
  pageSchema := some JsonApi.pageSchema
  createSchema := some JsonApi.createSchema
  updateSchema := some JsonApi.updateSchema

end DocumentApi.Representation
