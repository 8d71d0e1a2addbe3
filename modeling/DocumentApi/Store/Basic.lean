import DocumentApi.Failure

/-!
What a resource needs of the store that keeps its documents. Every action may change the state of
the store and may end in a fault, which leaves the state as it is by then.
-/

set_option autoImplicit false

namespace DocumentApi

abbrev StoreAction (σ : Type) := ExceptT StoreFault (StateM σ)

structure UpdateResult where
  matched : Int
  modified : Int
deriving DecidableEq, Repr

structure FindRequest where
  query : Record Value
  fields : Option (List String)
  limit : Nat
  skip : Nat
  sort : Option (Record Int)
deriving DecidableEq, Repr

structure DocumentStore (σ : Type) where
  find : FindRequest → StoreAction σ (List Document)
  findById : String → Option (List String) → StoreAction σ (Option Document)
  count : Record Value → StoreAction σ Int
  insert : Document → StoreAction σ Document
  updateById : String → Record Value → StoreAction σ UpdateResult
  deleteById : String → StoreAction σ Int

end DocumentApi
