import DocumentApi.Representation.Basic

/-!
Documents as they are, without an envelope.
-/

set_option autoImplicit false

namespace DocumentApi.Representation.Plain

def renderPage (p : PageToRender) : Value :=
  .object [("items", .object (p.documents.map fun d => (d.1, .object d.2))),
    ("page", .int p.page.current), ("limit", .int p.page.size), ("total", .int p.count)]

def function? : (c : Capability) → Option (c.Input → Answer Value)
  | .renderOne => some fun one => .ok (.object one.document)
  | .renderPage => some fun p => .ok (renderPage p)
  | .parseCreate => some fun b => .ok b.body
  | .parseUpdate => some fun b => .ok b.body

def sameSchema : SchemaOf := fun schema _ => schema

def pageSchema : SchemaOf := fun schema _ =>
  Schema.objectWith
    [("items", .object [("type", .string "object"), ("additionalProperties", schema)]),
      ("page", Schema.integer), ("limit", Schema.integer), ("total", Schema.integer)]
    ["items", "page", "limit", "total"]

end Plain

def plain : Representation where
  contentType := "application/json"
  function? := Plain.function?
  oneSchema := some Plain.sameSchema
  pageSchema := some Plain.pageSchema
  createSchema := some Plain.sameSchema
  updateSchema := some Plain.sameSchema

end DocumentApi.Representation
