import DocumentApi.PageLinks
import DocumentApi.Representation.Basic

/-!
Documents with links beside their fields, in the hypertext application language.
-/

set_option autoImplicit false

namespace DocumentApi.Representation.Hal

def href (url : String) : Value := .object [("href", .string url)]

def href? (url : Option String) : Value := (url.map href).getD .null

/-- Fields of the document stand in place of those of the envelope. -/
def renderOne (one : OneToRender) : Value :=
  .object (Record.merge
    [("_links", .object [("self", href one.url)]), ("type", .string one.resourceType)]
    one.document)

def renderPage (p : PageToRender) : Answer Value := do
  let links ← PageLinks.ofText p.count p.page p.url
  return .object
    [("_links", .object (withoutNull
        [("self", href links.current), ("next", href? links.next), ("prev", href? links.previous),
          ("first", href links.first), ("last", href links.last)])),
      ("_embedded", .object [(p.resourceType, .list (p.documents.values.map .object))]),
      ("type", .string p.resourceType), ("count", .int p.documents.length),
      ("total", .int p.count)]

def function? : (c : Capability) → Option (c.Input → Answer Value)
  | .renderOne => some fun one => .ok (renderOne one)
  | .renderPage => some renderPage
  | .parseCreate => none
  | .parseUpdate => none

def link : Value := Schema.object [("href", Schema.text)]

def oneSchema : SchemaOf := fun schema resourceType =>
  Schema.allOf
    [Schema.object
      [("_links", Schema.object [("self", link)]), ("type", Schema.textOr resourceType)],
      schema]

def pageSchema : SchemaOf := fun schema resourceType =>
  Schema.object
    [("_links", Schema.objectWith
        (["self", "next", "prev", "first", "last"].map fun name => (name, link))
        ["self", "first", "last"]),
      ("_embedded", Schema.object [(resourceType, Schema.array schema)]),
      ("type", Schema.textOr resourceType), ("count", Schema.integer), ("total", Schema.integer)]

end Hal

def hal : Representation where
  contentType := "application/hal+json"
  function? := Hal.function?
  oneSchema := some Hal.oneSchema
  pageSchema := some Hal.pageSchema
  createSchema := none
  updateSchema := none

end DocumentApi.Representation
