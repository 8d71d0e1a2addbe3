import DocumentApi.Json.Token

/-!
Reading a value from JSON text. The reader goes through the tokens once, with the lists and objects
that are still open on a stack.
-/

set_option autoImplicit false

namespace DocumentApi.Json

/-- A list or object under way; list items are kept in reverse. -/
inductive Frame where
  | list (items : List Value)
  | object (fields : Record Value) (name : String)
deriving Repr

inductive Expectation where
  | value
  | firstItem
  | name (fields : Record Value)
  | firstName
  | colon (fields : Record Value) (name : String)
  /-- What may follow a value: a comma or the end of what is open. -/
  | more (v : Value)
deriving Repr

def Expectation.complaint (stack : List Frame) : Expectation → Complaint
  | value | firstItem => .expectingValue
  | name _ | firstName => .expectingName
  | colon .. => .expectingColon
  | more _ => if stack.isEmpty then .extraData else .expectingComma

abbrev State := List Frame × Expectation

def startValue? (stack : List Frame) : Token → Option (Except Fault State)
  | .scalar v => some (.ok (stack, .more v))
  | .string s => some (.ok (stack, .more (.string s)))
  | .badScalar fault | .badString fault => some (.error fault)
  | .openList => some (.ok (.list [] :: stack, .firstItem))
  | .openObject => some (.ok (stack, .firstName))
  | _ => none

def startName? (stack : List Frame) (fields : Record Value) : Token → Option (Except Fault State)
  | .string s => some (.ok (stack, .colon fields s))
  | .badString fault => some (.error fault)
  | _ => none

def afterValue? (stack : List Frame) (v : Value) : Token → Option State
  | .comma =>
    match stack with
    | .list items :: outer => some (.list (v :: items) :: outer, .value)
    | .object fields name :: outer => some (outer, .name (fields.set name v))
    | [] => none
  | .closeList =>
    match stack with
    | .list items :: outer => some (outer, .more (.list (v :: items).reverse))
    | _ => none
  | .closeObject =>
    match stack with
    | .object fields name :: outer => some (outer, .more (.object (fields.set name v)))
    | _ => none
  | _ => none

/-- The state after a token, unless the token cannot stand there. -/
def advance? (stack : List Frame) (token : Token) : Expectation → Option (Except Fault State)
  | .value => startValue? stack token
  | .firstItem =>
    match token, stack with
    | .closeList, _ :: outer => some (.ok (outer, .more (.list [])))
    | _, _ => startValue? stack token
  | .name fields => startName? stack fields token
  | .firstName =>
    match token with
    | .closeObject => some (.ok (stack, .more (.object [])))
    | _ => startName? stack [] token
  | .colon fields name =>
    match token with
    | .colon => some (.ok (.object fields name :: stack, .value))
    | _ => none
  | .more v => (afterValue? stack v token).map .ok

def readTokens (ending : Nat) (state : State) : List (Nat × Token) → Except Fault Value
  | [] =>
    match state with
    | ([], .more v) => .ok v
    | (stack, expected) => .error (.malformed (expected.complaint stack) ending)
  | (position, token) :: rest =>
    match advance? state.1 token state.2 with
    | some (.ok next) => readTokens ending next rest
    | some (.error fault) => .error fault
    | none => .error (.malformed (state.2.complaint state.1) position)

def read (text : List Char) : Except Fault Value :=
  if text.head? = some '\ufeff' then .error (.malformed .byteOrderMark 0)
  else readTokens text.length ([], .value) (tokens 0 text)

def Complaint.message : Complaint → String
  | byteOrderMark => "Unexpected UTF-8 BOM (decode using utf-8-sig)"
  | expectingValue => "Expecting value"
  | expectingName => "Expecting property name enclosed in double quotes"
  | expectingColon => "Expecting ':' delimiter"
  | expectingComma => "Expecting ',' delimiter"
  | extraData => "Extra data"
  | unterminatedString => "Unterminated string starting at"
  | controlCharacter => "Invalid control character at"
  | badEscape => "Invalid \\escape"
  | badCodeUnit => "Invalid \\uXXXX escape"

/-- A complaint with its line and column, both counted from one, and its position. -/
def locatedMessage (text : List Char) (complaint : Complaint) (position : Nat) : String :=
  let before := text.take position
  let line := before.count '\n' + 1
  let column := (before.reverse.takeWhile (· ≠ '\n')).length + 1
  complaint.message ++ ": line " ++ toString line ++ " column " ++ toString column ++ " (char "
    ++ toString position ++ ")"

example : (read "[1, \x7b\"a\": [], \"a\": -0.5\x7d] ".toList).toOption =
    some (.list [.int 1, .object [("a", .float (Binary64.ofQuotient true 1 2))]]) := by
  decide +kernel

end DocumentApi.Json
