import DocumentApi.Http.Message
import DocumentApi.Http.PathTemplate

/-!
Routes, and applications made of them. A request goes to the first route of its method and path. If
no route has its path, a slash too many or too few at the end is put right by sending the client on.
-/

set_option autoImplicit false

namespace DocumentApi.Http

structure RouteInfo where
  name : String
  summary : String
  description : String
  status : Option Nat
  tags : List String
  responses : List (Nat × Value)
  extra : Option Value

structure Route (σ : Type) where
  method : String
  path : PathTemplate
  info : RouteInfo
  handler : Request → PathParams → SessionAction σ Reply

structure Application (σ : Type) where
  routes : List (Route σ)
  problemTypeBase : String

variable {σ : Type}

def showingProblems (typeBase : String) (action : SessionAction σ Reply) : SessionAction σ Reply :=
  tryCatch action fun failure =>
    match failure.problem? with
    | some p => Service.ofAnswer (Reply.ofProblem p typeBase)
    | none => throw failure

namespace Route

def hasPath (route : Route σ) (path : String) : Answer Bool :=
  (·.isSome) <$> route.path.params? path

end Route

namespace Application

def notFound : Reply := Reply.ofDetail 404 "Not Found"

def methodNotAllowed : Reply := Reply.ofDetail 405 "Method Not Allowed"

/-- The path without the slashes at its end, or with one if it has none. -/
def otherPath (path : String) : String :=
  match path.toList.reverse with
  | '/' :: rest => String.ofList (rest.dropWhile (· = '/')).reverse
  | _ => path ++ "/"

/-- The reply to a request for a path that no route has. -/
def astray (a : Application σ) (r : Request) : Answer Reply := do
  let path := otherPath r.path
  if r.path ≠ "/" ∧ (← a.routes.anyM (·.hasPath path)) then
    return Reply.ofRedirect (r.addressOf path)
  return notFound

/-- Goes through the routes; `found` tells whether one of the path was among those before. -/
def dispatchFrom (a : Application σ) (r : Request) (found : Bool) :
    List (Route σ) → SessionAction σ Reply
  | [] => if found then pure methodNotAllowed else Service.ofAnswer (a.astray r)
  | route :: rest => do
    match ← Service.ofAnswer (route.path.params? r.path) with
    | none => dispatchFrom a r found rest
    | some params =>
      if route.method = r.method then route.handler r params else dispatchFrom a r true rest

def dispatch (a : Application σ) (r : Request) : SessionAction σ Reply :=
  a.dispatchFrom r false a.routes

def handle (a : Application σ) (r : Request) : SessionAction σ Reply :=
  showingProblems a.problemTypeBase (a.dispatch r)

end Application

end DocumentApi.Http
