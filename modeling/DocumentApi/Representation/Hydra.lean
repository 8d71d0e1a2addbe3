import DocumentApi.PageLinks
import DocumentApi.Representation.Basic

/-!
Documents as linked data whose terms are those of one vocabulary; pages are collections in the terms
of Hydra.
-/

set_option autoImplicit false

namespace DocumentApi.Representation.Hydra

def hydraContext : String := "http://www.w3.org/ns/hydra/context.jsonld"

/-- Fields of the document stand in place of those that describe it. -/
def entity (id resourceType : String) (document : Document) : Record Value :=
  Record.merge [("@id", .string id), ("@type", .string resourceType)] document

def renderOne (vocabulary : String) (one : OneToRender) : Value :=
  .object (Record.merge [("@context", .object [("@vocab", .string vocabulary)])]
    (entity one.id one.resourceType one.document))

def renderPage (vocabulary : String) (p : PageToRender) : Answer Value := do
  let links ← PageLinks.ofText p.count p.page p.url
  return .object
    [("@context", .object [("hydra", .string hydraContext), ("@vocab", .string vocabulary)]),
      ("@id", .string links.first), ("@type", .string "hydra:Collection"),
      ("hydra:totalItems", .int p.count),
      ("hydra:member", .list (p.documents.map fun d => .object (entity d.1 p.resourceType d.2))),
      ("hydra:view", .object (withoutNull
        [("@id", .string links.current), ("@type", .string "hydra:PartialCollectionView"),
          ("hydra:first", .string links.first), ("hydra:previous", .ofString? links.previous),
          ("hydra:next", .ofString? links.next), ("hydra:last", .string links.last)]))]

def function? (vocabulary : String) : (c : Capability) → Option (c.Input → Answer Value)
  | .renderOne => some fun one => .ok (renderOne vocabulary one)
  | .renderPage => some (renderPage vocabulary)
  | .parseCreate => none
  | .parseUpdate => none

def entitySchema (schema : Value) (resourceType : String) : Value :=
  Schema.allOf
    [Schema.object [("@id", Schema.text), ("@type", Schema.textOr resourceType)], schema]

def oneSchema (vocabulary : String) : SchemaOf := fun schema resourceType =>
  Schema.allOf
    [Schema.object [("@context", Schema.object [("@vocab", Schema.textOr vocabulary)])],
      entitySchema schema resourceType]

def pageSchema (vocabulary : String) : SchemaOf := fun schema resourceType =>
  Schema.object
    [("@context", Schema.object
        [("@vocab", Schema.textOr vocabulary), ("hydra", Schema.textOr hydraContext)]),
      ("@id", Schema.text), ("@type", Schema.textOr "hydra:Collection"),
      ("hydra:totalItems", Schema.integer),
      ("hydra:member", Schema.array (entitySchema schema resourceType)),
      ("hydra:view", Schema.objectWith
        ([("@id", Schema.text), ("@type", Schema.textOr "hydra:PartialCollectionView")]
          ++ ["hydra:first", "hydra:previous", "hydra:next", "hydra:last"].map fun name =>
            (name, Schema.text))
        ["@id", "@type", "hydra:first", "hydra:last"])]

end Hydra

def hydra (vocabulary : String) : Representation where
  contentType := "application/ld+json"
  function? := Hydra.function? vocabulary
  oneSchema := some (Hydra.oneSchema vocabulary)
  pageSchema := some (Hydra.pageSchema vocabulary)
  createSchema := none
  updateSchema := none

end DocumentApi.Representation
