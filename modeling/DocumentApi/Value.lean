import DocumentApi.Number.Binary64
import DocumentApi.ObjectId
import DocumentApi.Record

/-!
The values that documents, filters and bodies are made of: those of JSON, with integers apart from
floating-point numbers, and the identifiers and patterns of the store. Equality is by form, so
`1` and `1.0` differ, and so do two objects with the same fields in another order.
-/

set_option autoImplicit false

namespace DocumentApi

inductive Value where
  | null
  | bool (b : Bool)
  | int (i : Int)
  | float (x : Binary64)
  | string (s : String)
  | list (items : List Value)
  | object (fields : List (String × Value))
  | objectId (id : ObjectId)
  | regex (pattern : String)
deriving Repr, Inhabited

namespace Value

mutual

def same : Value → Value → Bool
  | null, null => true
  | bool a, bool b => a == b
  | int a, int b => a == b
  | float a, float b => a == b
  | string a, string b => a == b
  | list a, list b => sameItems a b
  | object a, object b => sameFields a b
  | objectId a, objectId b => a == b
  | regex a, regex b => a == b
  | _, _ => false

def sameItems : List Value → List Value → Bool
  | [], [] => true
  | a :: as, b :: bs => same a b && sameItems as bs
  | _, _ => false

def sameFields : List (String × Value) → List (String × Value) → Bool
  | [], [] => true
  | (k, a) :: as, (l, b) :: bs => k == l && (same a b && sameFields as bs)
  | _, _ => false

end

mutual

theorem same_iff : ∀ a b : Value, same a b = true ↔ a = b
  | null, b => by cases b <;> simp [same]
  | bool _, b => by cases b <;> simp [same]
  | int _, b => by cases b <;> simp [same]
  | float _, b => by cases b <;> simp [same]
  | string _, b => by cases b <;> simp [same]
  | list as, b => by
    cases b with
    | list bs => simpa [same] using sameItems_iff as bs
    | _ => simp [same]
  | object as, b => by
    cases b with
    | object bs => simpa [same] using sameFields_iff as bs
    | _ => simp [same]
  | objectId _, b => by cases b <;> simp [same]
  | regex _, b => by cases b <;> simp [same]

theorem sameItems_iff : ∀ as bs : List Value, sameItems as bs = true ↔ as = bs
  | [], bs => by cases bs <;> simp [sameItems]
  | a :: as, bs => by
    cases bs with
    | nil => simp [sameItems]
    | cons b bs => simp [sameItems, same_iff a b, sameItems_iff as bs]

theorem sameFields_iff : ∀ as bs : List (String × Value), sameFields as bs = true ↔ as = bs
  | [], bs => by cases bs <;> simp [sameFields]
  | (k, a) :: as, bs => by
    cases bs with
    | nil => simp [sameFields]
    | cons b bs =>
      obtain ⟨l, b⟩ := b
      simp [sameFields, same_iff a b, sameFields_iff as bs, and_assoc]

end

instance : DecidableEq Value := fun a b => decidable_of_iff (same a b = true) (same_iff a b)

/-- The name of the JSON type; what JSON does not have counts as an object. -/
def typeName : Value → String
  | null => "null"
  | bool _ => "boolean"
  | int _ | float _ => "number"
  | string _ => "string"
  | list _ => "array"
  | _ => "object"

def isPrimitive : Value → Bool
  | null | bool _ | int _ | float _ | string _ => true
  | _ => false

def isTruthy : Value → Bool
  | null => false
  | bool b => b
  | int i => i ≠ 0
  | float x => !x.isZero
  | string s => s ≠ ""
  | list items => !items.isEmpty
  | object fields => !fields.isEmpty
  | objectId _ | regex _ => true

def string? : Value → Option String
  | string s => some s
  | _ => none

def object? : Value → Option (Record Value)
  | object fields => some fields
  | _ => none

def ofString? : Option String → Value
  | none => null
  | some s => string s

theorem ofString?_some (s : String) : ofString? (some s) = string s := rfl

end Value

abbrev Document := Record Value

end DocumentApi
