import DocumentApi.Value.Display

/-!
Problems: what goes wrong with a request, as told to the client. A problem has a status, a title and
a detail, and is shown as a problem document whose type is the status under some base address. What
goes on besides is noted in a log, for those who run the service.
-/

set_option autoImplicit false

namespace DocumentApi

inductive ProblemKind where
  | server
  | badRequest
  | filter
  | filterText
  | fieldNotAllowed
  | operatorNotAllowed
  | operatorValue
  | body
  | documentShape
  | notFound
  | entityNotFound
  | operationDisabled
  | conflict
  | configuration
  | noRepresentation
  | negotiation
deriving DecidableEq, Repr, Inhabited

namespace ProblemKind

def isClient : ProblemKind → Bool
  | badRequest | filter | filterText | fieldNotAllowed | operatorNotAllowed | operatorValue | body
  | documentShape => true
  | _ => false

/-- The client did nothing wrong: the resource is set up so that the request cannot be served. -/
def isConfiguration : ProblemKind → Bool
  | configuration | noRepresentation | negotiation => true
  | _ => false

def defaultStatus : ProblemKind → Int
  | notFound | entityNotFound => 404
  | operationDisabled => 405
  | conflict => 409
  | kind => if kind.isClient then 400 else 500

theorem defaultStatus_of_isClient {kind : ProblemKind} (h : kind.isClient) :
    kind.defaultStatus = 400 := by
  cases kind <;> first | rfl | simp [isClient] at h

def defaultTitle : ProblemKind → String
  | server => "Internal Server Error"
  | badRequest => "Bad Request"
  | filter | filterText | fieldNotAllowed | operatorNotAllowed | operatorValue =>
    "Invalid search criteria"
  | body => "Invalid body"
  | documentShape => "Document validation failure"
  | notFound => "Not Found"
  | entityNotFound => "Entity not found"
  | operationDisabled => "Method Not Allowed"
  | conflict => "Duplicate document"
  | configuration | noRepresentation => "Configuration error"
  | negotiation => "Unknown Accept header"

end ProblemKind

/-- The detail is a text, except where a store's own report is passed on as it came. -/
structure Problem where
  kind : ProblemKind
  title : String
  status : Int
  detail : Value
  extra : Record Value
deriving DecidableEq, Repr, Inhabited

namespace Problem

def defaultTypeBase : String := "https://httpstatuses.com/"

def of (kind : ProblemKind) (detail : String) : Problem :=
  ⟨kind, kind.defaultTitle, kind.defaultStatus, .string detail, []⟩

def titled (kind : ProblemKind) (title detail : String) : Problem :=
  { of kind detail with title }

/-- The action is named only if there is one. -/
def missingEntity (entity : String) (id : Value) (action : String) : Problem :=
  of .entityNotFound
    ("Unable to find an entity " ++ entity ++ " with id \"" ++ id.text ++ "\""
      ++ if action = "" then "" else " to " ++ action)

def fieldRefused (field : String) : Problem :=
  of .fieldNotAllowed ("The field \"" ++ field ++ "\" is not allowed")

def operatorRefused (operator : String) (logical : Bool) : Problem :=
  of .operatorNotAllowed
    ("The " ++ (if logical then "logical operator" else "operator") ++ " \"" ++ operator
      ++ "\" is not allowed")

def operatorValueRefused (operator expected : String) (value : Value) : Problem :=
  of .operatorValue
    ("The value of operator \"" ++ operator ++ "\" must be " ++ expected ++ " (provided type: \""
      ++ value.typeName ++ "\")")

def message (p : Problem) : String := p.title ++ ": " ++ p.detail.text

/-- The problem document; extra fields of the same name stand in place of the standard ones. -/
def toRecord (p : Problem) (typeBase : String) : Record Value :=
  Record.merge
    [("type", .string (typeBase ++ toString p.status)), ("title", .string p.title),
      ("status", .int p.status), ("detail", p.detail)]
    p.extra

end Problem

inductive LogLevel where
  | debug | info | warning | error
deriving DecidableEq, Repr

structure LogEntry where
  level : LogLevel
  message : String
deriving DecidableEq, Repr

end DocumentApi
