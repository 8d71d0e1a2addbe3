import DocumentApi.Service.Basic

/-!
Reading documents: a page of a list, and a single document.
-/

set_option autoImplicit false

namespace DocumentApi.Service

variable {σ : Type}

structure ListRequest where
  params : DeepObject.Pairs
  url : String
  accept : Option String
deriving DecidableEq, Repr

structure GetRequest where
  id : String
  url : String
  params : DeepObject.Pairs
  accept : Option String
deriving DecidableEq, Repr

/-- What a list query asks of the store, and the page that it is for. -/
structure Plan where
  query : Record Value
  fields : Option (List String)
  sort : Option (Record Int)
  page : PageRequest
deriving DecidableEq, Repr

/-- The plan for a list query, once its filter, fields and sort tokens are found to be allowed. -/
def plan (s : Service σ) (q : ListQuery) : Answer Plan := do
  let filters ← q.filters.mapM fun fields => s.validator.visitFields fields []
  let fields ← s.projection q.fields
  let sort ← s.whitelist.filterSort s.options.policy q.sort
  return ⟨StoreQuery.ofFilter (filters.getD []), fields, sort.map StoreQuery.ofSort, q.page⟩

def Plan.request (p : Plan) : FindRequest := ⟨p.query, p.fields, p.page.size, p.page.offset, p.sort⟩

/-- Documents by their identifiers; of several with one identifier the last is kept. -/
def keyed (s : Service σ) (documents : List Document) : Answer (Record Document) :=
  Record.ofList <$> documents.mapM fun document => do return (← s.idOf document, document)

def list (s : Service σ) (r : ListRequest) : SessionAction σ Response :=
  s.logged .list do
    s.ensureEnabled .list
    let representation ← s.negotiate .renderPage r.accept
    let query ← ofAnswer (s.querySettings.parse r.params)
    let plan ← ofAnswer (s.plan query)
    let documents ← s.callStore (s.store.find plan.request)
    let count ← s.callStore (s.store.count plan.query)
    let documents ← ofAnswer (s.keyed documents)
    let render ← ofAnswer (s.registry.renderer .renderPage representation.contentType)
    let body ← ofAnswer (render ⟨s.resourceType, r.url, count, plan.page, documents⟩)
    return ⟨200, body, some representation.contentType, none⟩

def get (s : Service σ) (r : GetRequest) : SessionAction σ Response :=
  s.logged .get do
    s.ensureEnabled .get
    let representation ← s.negotiate .renderOne r.accept
    let fields ← ofAnswer (s.projection (s.querySettings.fields r.params))
    match ← s.callStore (s.store.findById r.id fields) with
    | none => throw (s.missing r.id "")
    | some document =>
      let render ← ofAnswer (s.registry.renderer .renderOne representation.contentType)
      let body ← ofAnswer (render ⟨r.id, s.resourceType, r.url, document⟩)
      return ⟨200, body, some representation.contentType, none⟩

end DocumentApi.Service
