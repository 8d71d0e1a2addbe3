import DocumentApi.Store.Collection

/-!
A collection of documents in memory that keeps a list of the calls made to it. Documents are found
by their identifier only: any other query matches every document, so that what is asked for can be
read off the calls. A disturbance makes calls fail, miscount or miss on demand.
-/

set_option autoImplicit false

namespace DocumentApi

structure Disturbance where
  /-- A kind of call that fails after it is noted. -/
  fail : Option (CallKind × StoreFault)
  count : Option Int
  hidden : Bool
deriving DecidableEq, Repr

def Disturbance.none : Disturbance := ⟨.none, .none, false⟩

structure Memory where
  documents : List Document
  /-- Fields that no two documents may agree on, besides the identifier. -/
  unique : List String
  issued : Nat
  calls : List Call
deriving DecidableEq, Repr

namespace Memory

def ofDocuments (documents : List Document) (unique : List String) : Memory :=
  ⟨documents, unique, 0, []⟩

def idOf (document : Document) : Value := (document.get? "_id").getD .null

/-- The identifier that a query asks for, if it asks for nothing else. -/
def wantedId? : Record Value → Option Value
  | [("_id", .object _)] => none
  | [("_id", id)] => some id
  | _ => none

def selects (query : Record Value) (document : Document) : Bool :=
  (wantedId? query).all fun id => idOf document = id

def matching (m : Memory) (query : Record Value) : List Document :=
  m.documents.filter (selects query)

/-- A limit of zero is none. -/
def slice {α : Type} (skip limit : Nat) (as : List α) : List α :=
  if limit = 0 then as.drop skip else (as.drop skip).take limit

/-- The document with an identifier, a new one if it had none. -/
def identified (issued : Nat) (document : Document) : Document :=
  if document.contains "_id" then document
  else document ++ [("_id", .objectId (ObjectId.ofNat (issued + 1)))]

/-- A field that a stored document has with the same value. -/
def clash? (m : Memory) (document : Document) : Option (String × Value) :=
  ("_id" :: m.unique).findSome? fun name =>
    (document.get? name).bind fun value =>
      if m.documents.any fun stored => stored.get? name = some value then some (name, value)
      else none

def duplicate (field : String × Value) : StoreFault :=
  .duplicateKey "E11000 duplicate key" (some 11000) (.object [("keyValue", .object [field])])

def changeFirst {α : Type} (p : α → Bool) (f : α → α) : List α → List α
  | [] => []
  | a :: rest => if p a then f a :: rest else a :: changeFirst p f rest

/-- The fields that an update sets. -/
def changesOf (update : Record Value) : Record Value :=
  ((update.get? "$set").bind Value.object?).getD []

def readHex (id : String) : Except StoreFault ObjectId :=
  match ObjectId.ofHex? id with
  | some found => .ok found
  | none => .error (StoreFault.malformedId id)

section Calls
variable (d : Disturbance)

/-- Keeps note of a call, which then fails if the disturbance says so. -/
def note (call : Call) : StoreAction Memory Unit := do
  modify fun m => { m with calls := m.calls ++ [call] }
  match d.fail with
  | some (kind, fault) => if call.kind = kind then throw fault
  | none => pure ()

def find (query : Record Value) (fields : Option (Record Value)) (skip limit : Nat)
    (sort : Option (Record Int)) : StoreAction Memory (List Document) := do
  note d (.find query fields skip limit sort)
  let m ← get
  return slice skip limit (m.matching query)

def findOne (query : Record Value) (fields : Option (Record Value)) :
    StoreAction Memory (Option Document) := do
  note d (.findOne query fields)
  let m ← get
  return if d.hidden then none else (m.matching query).head?

def count (query : Record Value) : StoreAction Memory Int := do
  note d (.count query)
  let m ← get
  return d.count.getD (m.matching query).length

def insertOne (document : Document) : StoreAction Memory Value := do
  note d (.insertOne document)
  let m ← get
  let stored := identified m.issued document
  let m := if document.contains "_id" then m else { m with issued := m.issued + 1 }
  set m
  match m.clash? stored with
  | some field => throw (duplicate field)
  | none =>
    set { m with documents := m.documents ++ [stored] }
    return idOf stored

def updateOne (query update : Record Value) : StoreAction Memory UpdateResult := do
  note d (.updateOne query update)
  let m ← get
  let changes := changesOf update
  match (m.matching query).head? with
  | none => return ⟨0, 0⟩
  | some document =>
    let changed := changes.any fun field => document.get? field.1 ≠ some field.2
    let documents := changeFirst (selects query) (·.merge changes) m.documents
    set { m with documents }
    return ⟨1, if changed then 1 else 0⟩

def deleteOne (query : Record Value) : StoreAction Memory Int := do
  note d (.deleteOne query)
  let m ← get
  if (m.matching query).isEmpty then return 0
  set { m with documents := m.documents.eraseP (selects query) }
  return 1

def collection : Collection Memory where
  readId := readHex
  find := find d
  findOne := findOne d
  count := count d
  insertOne := insertOne d
  updateOne := updateOne d
  deleteOne := deleteOne d

end Calls

end Memory

end DocumentApi
