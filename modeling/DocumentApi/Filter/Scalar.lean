import DocumentApi.Number.Numeral
import DocumentApi.Text.Lowercase
import DocumentApi.Value

/-!
Values guessed from text: the words for truth values and null, integers, finite numbers; any other
text stands for itself.
-/

set_option autoImplicit false

namespace DocumentApi

def Value.ofText (s : String) : Value :=
  let word := Text.lowered s
  if word = "true" then .bool true
  else if word = "false" then .bool false
  else if word = "null" then .null
  else
    match Numeral.readInt s.toList with
    | .ok i => .int i
    | .error _ =>
      match Numeral.readFloat? s.toList with
      | some x => if x.isFinite then .float x else .string s
      | none => .string s

namespace Value

mutual

def coerce : Value → Value
  | .string s => ofText s
  | .list items => .list (coerceItems items)
  | .object fields => .object (coerceFields fields)
  | v => v

def coerceItems : List Value → List Value
  | [] => []
  | v :: rest => coerce v :: coerceItems rest

def coerceFields : List (String × Value) → List (String × Value)
  | [] => []
  | (name, v) :: rest => (name, coerce v) :: coerceFields rest

end

theorem coerceItems_eq_map (items : List Value) : coerceItems items = items.map coerce := by
  induction items with
  | nil => rfl
  | cons v rest ih => rw [coerceItems, ih, List.map_cons]

end Value

end DocumentApi
