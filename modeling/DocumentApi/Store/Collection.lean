import DocumentApi.Store.Basic

/-!
A collection of documents, which is kept by another package: only the calls that can be made to it
are given here. What is relied on of them is told where it is needed.
-/

set_option autoImplicit false

namespace DocumentApi

structure Collection (σ : Type) where
  /-- Reads the text of an object identifier. -/
  readId : String → Except StoreFault ObjectId
  find (query : Record Value) (fields : Option (Record Value)) (skip limit : Nat)
    (sort : Option (Record Int)) : StoreAction σ (List Document)
  findOne (query : Record Value) (fields : Option (Record Value)) : StoreAction σ (Option Document)
  count (query : Record Value) : StoreAction σ Int
  /-- Gives the identifier that the document is stored under. -/
  insertOne (document : Document) : StoreAction σ Value
  updateOne (query update : Record Value) : StoreAction σ UpdateResult
  deleteOne (query : Record Value) : StoreAction σ Int

inductive Call where
  | find (query : Record Value) (fields : Option (Record Value)) (skip limit : Nat)
      (sort : Option (Record Int))
  | findOne (query : Record Value) (fields : Option (Record Value))
  | count (query : Record Value)
  | insertOne (document : Document)
  | updateOne (query update : Record Value)
  | deleteOne (query : Record Value)
deriving DecidableEq, Repr

inductive CallKind where
  | find | findOne | count | insertOne | updateOne | deleteOne
deriving DecidableEq, Repr

def CallKind.isRead : CallKind → Bool
  | find | findOne | count => true
  | insertOne | updateOne | deleteOne => false

def Call.kind : Call → CallKind
  | find .. => .find
  | findOne .. => .findOne
  | count .. => .count
  | insertOne .. => .insertOne
  | updateOne .. => .updateOne
  | deleteOne .. => .deleteOne

end DocumentApi
