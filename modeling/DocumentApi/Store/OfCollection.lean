import DocumentApi.Store.Collection
import DocumentApi.Store.IdCodec
import DocumentApi.Store.Query

/-!
A document store over a collection. Identifiers pass through a codec on their way in, and are shown
as text on their way out.
-/

set_option autoImplicit false

namespace DocumentApi.Collection

variable {σ : Type}

def byId (id : Value) : Record Value := [("_id", id)]

/-- The update that gives fields new values. -/
def setting (changes : Record Value) : Record Value := [("$set", .object changes)]

/-- A document to insert, where a null identifier is none. -/
def withoutNullId (document : Document) : Document :=
  if document.get? "_id" = some .null then document.erase "_id" else document

variable (c : Collection σ) (codec : IdCodec)

def selector (id : String) : StoreAction σ (Record Value) :=
  match codec.decode c.readId id with
  | .ok id => return byId id
  | .error fault => throw fault

def findFor (request : FindRequest) : StoreAction σ (List Document) :=
  c.find request.query (StoreQuery.ofFields request.fields) request.skip request.limit
    (request.sort.filter fun sort => !sort.isEmpty)

def insert (document : Document) : StoreAction σ Document := do
  let document := withoutNullId document
  return document.set "_id" (← c.insertOne document)

def updateById (id : String) (patch : Record Value) : StoreAction σ UpdateResult := do
  let query ← c.selector codec id
  let changes := patch.erase "_id"
  if changes.isEmpty then return ⟨← c.count query, 0⟩
  c.updateOne query (setting changes)

def store : DocumentStore σ where
  find request := do return (← c.findFor request).map IdCodec.shownDocument
  findById id fields := do
    return (← c.findOne (← c.selector codec id) (StoreQuery.ofFields fields)).map
      IdCodec.shownDocument
  count := c.count
  insert document := do return IdCodec.shownDocument (← c.insert document)
  updateById := c.updateById codec
  deleteById id := do c.deleteOne (← c.selector codec id)

end DocumentApi.Collection
