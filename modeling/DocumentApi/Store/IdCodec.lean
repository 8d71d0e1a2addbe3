import DocumentApi.Failure

/-!
How the text of an identifier in a path becomes the identifier that the store keeps.
-/

set_option autoImplicit false

namespace DocumentApi

inductive IdCodec where
  /-- An object identifier if the text can be one, else the text. -/
  | objectIdOrText
  | objectId
  | text
deriving DecidableEq, Repr, Inhabited

namespace IdCodec

/-- The identifier for a text, given what reads those of object identifiers. -/
def decode (codec : IdCodec) (read : String → Except StoreFault ObjectId) (id : String) :
    Except StoreFault Value :=
  match codec with
  | text => .ok (.string id)
  | objectId => (read id).map .objectId
  | objectIdOrText =>
    match read id with
    | .ok found => .ok (if id.toList.length = 24 then .objectId found else .string id)
    | .error _ => .ok (.string id)

/-- A document as clients see it, its identifier written out. -/
def shownDocument (document : Record Value) : Record Value :=
  match document.get? "_id" with
  | some (.objectId id) => document.set "_id" (.string id.text)
  | _ => document

end IdCodec

end DocumentApi
