import DocumentApi.Service.Basic

/-!
Writing documents: creating, changing and removing one.
-/

set_option autoImplicit false

namespace DocumentApi.Service

variable {σ : Type}

structure CreateRequest where
  body : Value
  url : String
  contentType : Option String
  accept : Option String
deriving DecidableEq, Repr

structure UpdateRequest where
  id : String
  body : Value
  url : String
  params : DeepObject.Pairs
  contentType : Option String
  accept : Option String
  noContent : Bool
deriving DecidableEq, Repr

def identified (id : String) (document : Document) : Document := document.set "_id" (.string id)

def bodyParser (s : Service σ) (c : Capability) (contentType accept : Option String) :
    SessionAction σ ((c.Input → Answer Value) × Representation) := do
  let requested ← s.negotiate c contentType
  let representation ← s.negotiate .renderOne accept
  return (← ofAnswer (s.registry.parser c requested.contentType), representation)

def locationOf (url id : String) : Answer String := do
  return ((← RelativeUrl.ofText url).clearParams.appendPath id).text

def create (s : Service σ) (r : CreateRequest) : SessionAction σ Response :=
  s.logged .create do
    s.ensureEnabled .create
    let (parse, representation) ← s.bodyParser .parseCreate r.contentType r.accept
    let document ← ofAnswer (parse ⟨r.body, s.resourceType⟩ >>= requireObject)
    let created ← s.callStore (s.store.insert document)
    let id ← ofAnswer (s.idOf created)
    let location ← ofAnswer (locationOf r.url id)
    addLog [⟨.info, "Created " ++ s.entity ++ " " ++ id⟩]
    if s.options.disabled.read then return { Response.noContent with location := some location }
    let render ← ofAnswer (s.registry.renderer .renderOne representation.contentType)
    let body ← ofAnswer (render ⟨id, s.resourceType, location, created⟩)
    return ⟨201, body, some representation.contentType, some location⟩

def showUpdated (s : Service σ) (r : UpdateRequest) (representation : Representation) :
    SessionAction σ Response := do
  let fields ← ofAnswer (s.projection (s.querySettings.fields r.params))
  match ← s.callStore (s.store.findById r.id fields) with
  | none => throw (s.missing r.id "update")
  | some document =>
    let url ← ofAnswer (RelativeUrl.ofText r.url)
    let render ← ofAnswer (s.registry.renderer .renderOne representation.contentType)
    let body ← ofAnswer
      (render ⟨r.id, s.resourceType, (url.keepParams ["fields"]).text, document⟩)
    return ⟨200, body, some representation.contentType, none⟩

def update (s : Service σ) (r : UpdateRequest) : SessionAction σ Response :=
  s.logged .update do
    s.ensureEnabled .update
    let (parse, representation) ← s.bodyParser .parseUpdate r.contentType r.accept
    let patch ← ofAnswer (parse ⟨r.body, s.resourceType, r.id⟩ >>= requireObject)
    let result ← s.callStore (s.store.updateById r.id (identified r.id patch))
    if result.matched = 0 then throw (s.missing r.id "update")
    if result.modified = 0 || r.noContent || s.options.disabled.read then return Response.noContent
    s.showUpdated r representation

def delete (s : Service σ) (id : String) : SessionAction σ Response :=
  s.logged .delete do
    s.ensureEnabled .delete
    let removed ← s.callStore (s.store.deleteById id)
    if removed = 0 then throw (s.missing id "delete")
    addLog [⟨.info, "Deleted " ++ s.entity ++ " " ++ id⟩]
    return Response.noContent

end DocumentApi.Service
