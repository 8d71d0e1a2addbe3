import DocumentApi.Json.Reader
import DocumentApi.Json.Writer
import DocumentApi.Service.Basic
import DocumentApi.Text.Encoding
import DocumentApi.Url.Parts
import DocumentApi.Url.Query

/-!
Requests and replies: the address, parameters and JSON body of a request, and the replies that show
a response of a service, a problem or a plain detail.
-/

set_option autoImplicit false

namespace DocumentApi.Http

open Text

/-- The path is decoded, the query is not. The server is the host of a request that names none. -/
structure Request where
  server : String
  method : String
  path : String
  query : String
  headers : List (String × String)
  body : List UInt8
deriving DecidableEq, Repr

structure Reply where
  status : Int
  contentType : Option String
  location : Option String
  body : String
deriving DecidableEq, Repr

namespace Request

def ofTarget (server method target : String) (headers : List (String × String))
    (body : List UInt8) : Request :=
  let (path, query) := cut '?' target.toList
  ⟨server, method, String.ofList (Percent.decode path), String.ofList (query.getD []), headers,
    body⟩

def header? (r : Request) (name : String) : Option String :=
  (r.headers.find? fun h => lowered h.1 = name).map (·.2)

def accept (r : Request) : Option String := r.header? "accept"

def contentType (r : Request) : Option String := r.header? "content-type"

/-- A path, decoded, as it stands in an address: what would end it is escaped again. -/
def escapedPath (path : String) : String :=
  String.ofList (path.toList.flatMap fun c =>
    if c ∈ ['?', '#', '\\'] then Percent.escape c.toUInt8 else [c])

/-- The address of a path on the host of the request, with the query of the request. -/
def addressOf (r : Request) (path : String) : String :=
  "http://" ++ (r.header? "host").getD r.server ++ escapedPath path
    ++ if r.query = "" then "" else "?" ++ r.query

def url (r : Request) : Answer String := do
  let parts ← Url.Parts.ofText (r.addressOf r.path).toList
  return String.ofList parts.path
    ++ if parts.query.isEmpty then "" else "?" ++ String.ofList parts.query

/-- The octets of the query, each as the character of its number. -/
def queryOctets (r : Request) : List Char :=
  (Utf8.encode r.query.toList).map fun octet => Char.ofNat octet.toNat

def params (r : Request) : List Url.Param := Url.readQuery r.queryOctets

def param? (r : Request) (name : String) : Option String :=
  (r.params.reverse.find? fun p => p.1 = name).map (·.2)

def pairs (r : Request) : DeepObject.Pairs := r.params.map fun p => (p.1, .string p.2)

def malformedBody : Failure := .ofProblem .body "The body MUST be a valid JSON document"

def json (r : Request) : Answer Value :=
  if r.body.isEmpty then .ok .null
  else
    match (Encoding.textOf? r.body).map Json.read with
    | some (.ok v) => .ok v
    | _ => .error malformedBody

end Request

namespace Reply

def textOf (v : Value) : Answer String :=
  match Json.unwritable? v with
  | none => .ok (Json.write Json.compact v)
  | some .outOfRange => .error .outOfRangeNumber
  | some .foreign => .error .notSerializable

/-- A header value holds one octet for each character. -/
def checkHeader (value : Option String) : Answer Unit :=
  if value.all fun s => s.toList.all (·.toNat < 0x100) then .ok () else .error .notLatin1

/-- A response without a body has no content type either. -/
def ofResponse (r : DocumentApi.Response) : Answer Reply := do
  let shown := r.body ≠ .null
  let body ← if shown then textOf r.body else pure ""
  checkHeader r.location
  return ⟨r.status, if shown then r.contentType else none, r.location, body⟩

def ofProblem (p : Problem) (typeBase : String) : Answer Reply := do
  return ⟨p.status, some "application/problem+json", none,
    ← textOf (.object (p.toRecord typeBase))⟩

def ofRedirect (address : String) : Reply :=
  ⟨307, none, some (String.ofList (Percent.encodeAddress address.toList)), ""⟩

def ofDetail (status : Int) (detail : String) : Reply :=
  ⟨status, some "application/json", none,
    Json.write Json.compact (.object [("detail", .string detail)])⟩

end Reply

end DocumentApi.Http
