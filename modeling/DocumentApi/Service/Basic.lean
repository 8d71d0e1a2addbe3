import DocumentApi.ListQuery
import DocumentApi.Representation.Hal
import DocumentApi.Representation.JsonApi
import DocumentApi.Representation.Registry
import DocumentApi.Service.Options
import DocumentApi.Store.Query
import DocumentApi.Store.Report
import DocumentApi.Whitelist

/-!
A service for one resource: documents of a store, offered in several representations. Requests run
in a session, which keeps the state of the store and the log also where a request fails.
-/

set_option autoImplicit false

namespace DocumentApi

structure Service (σ : Type) where
  store : DocumentStore σ
  entity : String
  options : Options
  registry : Registry
  whitelist : Whitelist
  reporter : Reporter

structure Response where
  status : Nat
  /-- Null for no body. -/
  body : Value
  contentType : Option String
  location : Option String
deriving DecidableEq, Repr

structure Session (σ : Type) where
  store : σ
  log : List LogEntry

abbrev SessionAction (σ : Type) := ExceptT Failure (StateM (Session σ))

namespace Response

def noContent : Response := ⟨204, .null, none, none⟩

end Response

namespace Service

variable {σ α : Type}

def defaultRepresentations : List Representation := [Representation.jsonApi, Representation.hal]

def resourceType (s : Service σ) : String :=
  match s.options.resourceType with
  | none | some "" => s.entity
  | some name => name

def isEnabled (s : Service σ) (op : Operation) : Bool := !s.options.isDisabled op

def validator (s : Service σ) : Validator :=
  ⟨s.options.operators, s.whitelist.filterable, s.options.policy, s.options.escapeLogical⟩

def querySettings (s : Service σ) : QuerySettings :=
  { QuerySettings.standard with limits := s.options.limits }

def ofAnswer (a : Answer α) : SessionAction σ α := ExceptT.mk (pure a)

def addLog (entries : List LogEntry) : SessionAction σ Unit :=
  modify fun session => { session with log := session.log ++ entries }

def rejection (s : Service σ) (op : Operation) (p : Problem) : LogEntry :=
  let subject := op.name ++ " " ++ s.resourceType
  if p.kind.isConfiguration then
    ⟨.error, subject ++ ": server misconfiguration: " ++ p.message⟩
  else
    ⟨.debug, subject ++ " rejected (" ++ toString p.status ++ "): " ++ p.detail.text⟩

def logged (s : Service σ) (op : Operation) (action : SessionAction σ α) : SessionAction σ α :=
  tryCatch action fun failure => do
    match failure with
    | .problem p => addLog [s.rejection op p]
    | _ => pure ()
    throw failure

def ensureEnabled (s : Service σ) (op : Operation) : SessionAction σ Unit :=
  if s.isEnabled op then pure ()
  else
    throw (.ofProblem .operationDisabled
      ("The operation \"" ++ op.name ++ "\" is disabled for resource \"" ++ s.resourceType ++ "\""))

def negotiate (s : Service σ) (c : Capability) (header : Option String) :
    SessionAction σ Representation := do
  let (answer, entries) := s.registry.negotiate c (.ofString? header)
  addLog entries
  ofAnswer answer

def fail (s : Service σ) (fault : StoreFault) : SessionAction σ α := do
  match fault with
  | .problem p => throw (.problem p)
  | _ =>
    let (p, entries) ← ofAnswer (s.reporter.report fault s.entity)
    addLog entries
    if 500 ≤ p.status then
      addLog [⟨.warning, "Store failure on " ++ s.entity ++ ": " ++ fault.text⟩]
    throw (.problem p)

def callStore (s : Service σ) (action : StoreAction σ α) : SessionAction σ α := do
  let session ← get
  let (result, store) := action.run.run session.store
  set { session with store }
  match result with
  | .ok a => pure a
  | .error fault => s.fail fault

def idOf (s : Service σ) (document : Document) : Answer String :=
  match document.get? s.options.idField with
  | some id => .ok id.text
  | none => .error (.missingField s.options.idField)

def requireObject : Value → Answer Document
  | .object fields => .ok fields
  | _ => .error (.ofProblem .body "The body MUST defined and of type object")

def missing (s : Service σ) (id action : String) : Failure :=
  .problem (Problem.missingEntity s.entity (.string id) action)

def projection (s : Service σ) (fields : Option (List String)) : Answer (Option (List String)) :=
  s.whitelist.filterProjection s.options.policy fields

end Service

end DocumentApi
