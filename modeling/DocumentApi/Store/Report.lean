import DocumentApi.Json.Writer
import DocumentApi.Store.Basic

/-!
Faults of the store as problems for the client. Faults that the client caused are told apart by the
server's code; anything else is reported as a failure of the server and logged.
-/

set_option autoImplicit false

namespace DocumentApi

inductive Reporter where
  | plain
  | byCode
deriving DecidableEq, Repr, Inhabited

namespace StoreFault

def shapeFaultCode : Int := 121

def codeNames : List (Int × String) :=
  [(2, "BadValue"), (9, "FailedToParse"), (14, "TypeMismatch"), (28, "PathNotViable"),
    (52, "DollarPrefixedFieldName"), (55, "InvalidDBRef"), (56, "EmptyFieldName"),
    (57, "DottedFieldName"), (66, "ImmutableField"), (121, "DocumentValidationFailure"),
    (11000, "DuplicateKey"), (17280, "KeyTooLong")]

def codeName? (code : Option Int) : Option String :=
  code.bind fun code => (codeNames.find? fun name => name.1 = code).map (·.2)

def humanize (name : String) : String :=
  Text.stripped (String.ofList (name.toList.flatMap fun c =>
    if 'A' ≤ c ∧ c ≤ 'Z' then [' ', c] else [c]))

def detail? (details : Value) (name : String) : Value :=
  ((details.object?.bind fun fields => fields.get? name)).getD .null

def keyText (field : String × Value) : String :=
  field.1 ++ ": " ++ Json.write Json.spaced field.2

/-- The fields that clash, as far as the server told them. -/
def clashingKeys (details : Value) : Answer (Record Value) :=
  let keys := detail? details "keyValue"
  if keys.isTruthy then (keys.object?).elim (.error .notARecord) .ok else .ok [("", .string "?")]

def conflict (details : Value) (entity : String) : Answer Problem := do
  let keys ← clashingKeys details
  return Problem.of .conflict
    ("A document with the keys (" ++ String.intercalate "), (" (keys.map keyText)
      ++ ") already exist for entity \"" ++ entity ++ "\"")

def unexpected (fault : StoreFault) (entity : String) : Problem × List LogEntry :=
  (Problem.titled .server (humanize fault.className) fault.text,
    [⟨.warning, "Unexpected store error for " ++ entity⟩])

/-- The server's own message if it gave one, else the text of the fault. -/
def serverMessage (fault : StoreFault) (details : Value) : Value :=
  let message := detail? details "errmsg"
  if message.isTruthy then message else .string fault.text

def report (fault : StoreFault) (entity : String) : Answer (Problem × List LogEntry) :=
  match fault with
  | problem p => .ok (p, [])
  | duplicateKey _ _ details => (conflict details entity).map (·, [])
  | operation _ _ code details =>
    if code = some shapeFaultCode then
      .ok (Problem.of .documentShape "The document does not meet Mongodb schema validation", [])
    else
      match codeName? code with
      | some name =>
        .ok ({ Problem.titled .documentShape (humanize name) "" with
          detail := serverMessage fault details }, [])
      | none => .ok (fault.unexpected entity)
  | invalidId message => .ok (Problem.titled .documentShape "Cast Error" message, [])
  | missingKey _ | other .. => .ok (fault.unexpected entity)

/-- The problem of a fault that nothing more is known of. -/
def reportPlain : StoreFault → Problem
  | problem p => p
  | fault => Problem.titled .server fault.className fault.text

end StoreFault

namespace Reporter

def report (reporter : Reporter) (fault : StoreFault) (entity : String) :
    Answer (Problem × List LogEntry) :=
  match reporter with
  | plain => .ok (fault.reportPlain, [])
  | byCode => fault.report entity

end Reporter

end DocumentApi
