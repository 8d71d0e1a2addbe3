import DocumentApi.Http.Application
import DocumentApi.Service.Read
import DocumentApi.Service.Write

/-!
The routes of a resource, one for each operation that is not disabled. Lists are at the path of the
resource, and single documents one segment below it.
-/

set_option autoImplicit false

namespace DocumentApi.Http

structure Mount where
  path : Option String
  tags : List String
  documentSchema : Option Value
deriving DecidableEq, Repr

variable {σ : Type}

namespace Mount

def basePath (m : Mount) (s : Service σ) : Answer String :=
  let path :=
    match m.path with
    | none | some "" => "/" ++ s.resourceType
    | some path => path
  if path.toList.head? ≠ some '/' then .error .relativePath
  else if path.toList.getLast? = some '/' then .error .openPath
  else .ok path

def tagsFor (m : Mount) (s : Service σ) : List String :=
  if m.tags.isEmpty then [s.resourceType] else m.tags

def content (m : Mount) (s : Service σ) (c : Capability)
    (schema : Representation → Option SchemaOf) : Value :=
  .object ((s.registry.capable c).map fun r =>
    (r.contentType, .object [("schema",
      match schema r, m.documentSchema with
      | some ofDocument, some document => ofDocument document s.resourceType
      | _, _ => Schema.anyObject)]))

def oneContent (m : Mount) (s : Service σ) : Value :=
  .object [("content", m.content s .renderOne (·.oneSchema))]

def requestBody (content : Value) : Value :=
  .object [("requestBody", .object [("required", .bool true), ("content", content)])]

def described (description : String) : Value := .object [("description", .string description)]

def listDescription (s : Service σ) : String :=
  Text.stripped ("Filter with `filters[<field>][<operator>]=<value>`.\n\n"
    ++ Operator.describe s.options.operators)

def info (m : Mount) (s : Service σ) : Operation → RouteInfo
  | .list =>
    { name := "get_list", summary := "List " ++ s.resourceType, description := listDescription s
      status := none, tags := m.tagsFor s
      responses := [(200, .object [("content", m.content s .renderPage (·.pageSchema))])]
      extra := none }
  | .get =>
    { name := "get_one", summary := "Get one " ++ s.resourceType, description := ""
      status := none, tags := m.tagsFor s, responses := [(200, m.oneContent s)]
      extra := none }
  | .create =>
    { name := "create_one", summary := "Create one " ++ s.resourceType, description := ""
      status := some 201, tags := m.tagsFor s
      responses := [(201, m.oneContent s), (204, described "Created, no content returned")]
      extra := some (requestBody (m.content s .parseCreate (·.createSchema))) }
  | .update =>
    { name := "update_one", summary := "Update one " ++ s.resourceType, description := ""
      status := none, tags := m.tagsFor s
      responses := [(200, m.oneContent s), (204, described "Updated, no content returned")]
      extra := some (requestBody (m.content s .parseUpdate (·.updateSchema))) }
  | .delete =>
    { name := "delete_one", summary := "Delete one " ++ s.resourceType, description := ""
      status := some 204, tags := m.tagsFor s, responses := [], extra := none }

end Mount

def methodOf : Operation → String
  | .list | .get => "GET"
  | .create => "POST"
  | .update => "PATCH"
  | .delete => "DELETE"

def idParam : String := "entity_id"

def subPath : Operation → String
  | .list | .create => ""
  | .get | .update | .delete => "/\x7b" ++ idParam ++ "\x7d"

def wantsNoContent (r : Request) : Bool :=
  (r.param? "no-content").any fun value => Text.lowered value ∈ ["", "1", "true"]

def perform (s : Service σ) (r : Request) (id : String) :
    Operation → SessionAction σ DocumentApi.Response
  | .list => do s.list ⟨r.pairs, ← Service.ofAnswer r.url, r.accept⟩
  | .get => do s.get ⟨id, ← Service.ofAnswer r.url, r.pairs, r.accept⟩
  | .create => do
    let body ← Service.ofAnswer r.json
    s.create ⟨body, ← Service.ofAnswer r.url, r.contentType, r.accept⟩
  | .update => do
    let body ← Service.ofAnswer r.json
    let url ← Service.ofAnswer r.url
    s.update ⟨id, body, url, r.pairs, r.contentType, r.accept, wantsNoContent r⟩
  | .delete => s.delete id

def textOf (params : PathParams) (name : String) : String :=
  ((params.find? (·.name = name)).map fun p => String.ofList p.text).getD ""

/-- Problems are shown with the address base that the service has for them. -/
def resourceHandler (s : Service σ) (op : Operation) (r : Request) (params : PathParams) :
    SessionAction σ Reply :=
  showingProblems s.options.problemTypeBase do
    let response ← perform s r (textOf params idParam) op
    Service.ofAnswer (Reply.ofResponse response)

def resourceRoutes (s : Service σ) (m : Mount) : Answer (List (Route σ)) := do
  let base ← m.basePath s
  (Operation.all.filter s.isEnabled).mapM fun op => do
    let path ← PathTemplate.ofText (base ++ subPath op)
    return ⟨methodOf op, path, m.info s op, resourceHandler s op⟩

end DocumentApi.Http
