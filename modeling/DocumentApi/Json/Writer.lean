import DocumentApi.Number.Shortest
import DocumentApi.Text.CodeUnit
import DocumentApi.Text.Quoted
import DocumentApi.Value.Display

/-!
JSON text of a value. Two styles are in use: a compact one for bodies, and one with blanks and
plain ASCII for messages. What JSON has no form for is written as a text or as a bare word, so a
body is checked for such values first.
-/

set_option autoImplicit false

namespace DocumentApi.Json

structure Style where
  itemSeparator : String
  nameSeparator : String
  /-- Whether characters outside of printable ASCII are written as escapes. -/
  ascii : Bool
deriving DecidableEq, Repr

def compact : Style := ⟨",", ":", false⟩

def spaced : Style := ⟨", ", ": ", true⟩

def unitEscape (n : Nat) : List Char := '\\' :: 'u' :: Text.hexText 4 n

def charEscape (c : Char) : List Char := (Text.CodeUnit.ofChar c).flatMap unitEscape

def writeChar (style : Style) (c : Char) : List Char :=
  if c = '"' ∨ c = '\\' then ['\\', c]
  else if c = '\n' then ['\\', 'n']
  else if c = '\r' then ['\\', 'r']
  else if c = '\t' then ['\\', 't']
  else if c = '\u0008' then ['\\', 'b']
  else if c = '\u000c' then ['\\', 'f']
  else if c.toNat < 0x20 ∨ (style.ascii ∧ 0x7e < c.toNat) then charEscape c
  else [c]

def writeString (style : Style) (s : String) : String :=
  String.ofList ('"' :: s.toList.flatMap (writeChar style) ++ ['"'])

def writeFloat : Binary64 → String
  | .nan => "NaN"
  | .infinite false => "Infinity"
  | .infinite true => "-Infinity"
  | x => x.text

mutual

def write (style : Style) : Value → String
  | .null => "null"
  | .bool b => if b then "true" else "false"
  | .int i => toString i
  | .float x => writeFloat x
  | .string s => writeString style s
  | .list items => "[" ++ writeItems style items ++ "]"
  | .object fields => "\x7b" ++ writeFields style fields ++ "\x7d"
  | .objectId id => writeString style id.text
  | .regex pattern => writeString style (Value.regex pattern).text

def writeItems (style : Style) : List Value → String
  | [] => ""
  | [v] => write style v
  | v :: rest => write style v ++ style.itemSeparator ++ writeItems style rest

def writeFields (style : Style) : List (String × Value) → String
  | [] => ""
  | [(name, v)] => writeString style name ++ style.nameSeparator ++ write style v
  | (name, v) :: rest =>
    writeString style name ++ style.nameSeparator ++ write style v ++ style.itemSeparator
      ++ writeFields style rest

end

inductive Unwritable where
  | outOfRange
  | foreign
deriving DecidableEq, Repr

mutual

def unwritable? : Value → Option Unwritable
  | .float x => if x.isFinite then none else some .outOfRange
  | .objectId _ | .regex _ => some .foreign
  | .list items => unwritableItem? items
  | .object fields => unwritableField? fields
  | _ => none

def unwritableItem? : List Value → Option Unwritable
  | [] => none
  | v :: rest => (unwritable? v).or (unwritableItem? rest)

def unwritableField? : List (String × Value) → Option Unwritable
  | [] => none
  | (_, v) :: rest => (unwritable? v).or (unwritableField? rest)

end

end DocumentApi.Json
