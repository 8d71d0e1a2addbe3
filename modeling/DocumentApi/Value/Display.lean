import DocumentApi.Number.Shortest
import DocumentApi.Text.Quoted
import DocumentApi.Value

/-!
Values as messages show them: `display` marks texts with quotes, `text` gives a text as it is.
-/

set_option autoImplicit false

namespace DocumentApi.Value

mutual

def display : Value → String
  | null => "None"
  | bool b => if b then "True" else "False"
  | int i => toString i
  | float x => x.text
  | string s => Text.quoted s
  | list items => "[" ++ displayItems items ++ "]"
  | object fields => "\x7b" ++ displayFields fields ++ "\x7d"
  | objectId id => "ObjectId('" ++ id.text ++ "')"
  | regex pattern => "Regex(" ++ Text.quoted pattern ++ ", 0)"

def displayItems : List Value → String
  | [] => ""
  | [v] => display v
  | v :: rest => display v ++ ", " ++ displayItems rest

def displayFields : List (String × Value) → String
  | [] => ""
  | [(name, v)] => Text.quoted name ++ ": " ++ display v
  | (name, v) :: rest => Text.quoted name ++ ": " ++ display v ++ ", " ++ displayFields rest

end

def text : Value → String
  | string s => s
  | objectId id => id.text
  | v => v.display

end DocumentApi.Value
