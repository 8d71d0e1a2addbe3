import DocumentApi.Url.Parts
import DocumentApi.Url.Query

/-!
Addresses relative to a host: a path, parameters and a fragment. Equivalent addresses have the same
text, since the parameters are written in the order of their names.
-/

set_option autoImplicit false

namespace DocumentApi

structure RelativeUrl where
  path : String
  params : List Url.Param
  fragment : String
deriving DecidableEq, Repr

namespace RelativeUrl

/-- The path always starts with a slash. -/
def rooted (path : List Char) : List Char :=
  if path.head? = some '/' then path else '/' :: path

def ofParts (parts : Url.Parts) : RelativeUrl :=
  ⟨String.ofList (rooted parts.path), Url.readQuery parts.query, String.ofList parts.fragment⟩

def ofText (s : String) : Answer RelativeUrl := ofParts <$> Url.Parts.ofText s.toList

/-- What is no address is a fault of the address. -/
theorem ofText_error {s : String} {failure : Failure} (h : ofText s = .error failure) :
    ∃ fault, failure = .url fault := by
  have hparts : Url.Parts.ofText s.toList = .error failure := by
    cases hp : Url.Parts.ofText s.toList <;> rw [ofText, hp] at h <;> cases h
    rfl
  rcases Answer.bind_eq_error.mp hparts with hc | ⟨_, _, hr⟩
  · exact Url.checkAuthority_error hc
  · cases hr

def param? (u : RelativeUrl) (name : String) : Option String :=
  (u.params.find? fun p => p.1 = name).map (·.2)

/-- Replaces the first parameter of the name and drops the others, or adds one at the end. -/
def setFirst (name value : String) : List Url.Param → List Url.Param
  | [] => [(name, value)]
  | p :: rest =>
    if p.1 = name then (name, value) :: rest.filter (fun q => q.1 ≠ name)
    else p :: setFirst name value rest

def setParam (u : RelativeUrl) (name value : String) : RelativeUrl :=
  { u with params := setFirst name value u.params }

def removeParam (u : RelativeUrl) (name : String) : RelativeUrl :=
  { u with params := u.params.filter fun p => p.1 ≠ name }

def keepParams (u : RelativeUrl) (names : List String) : RelativeUrl :=
  { u with params := u.params.filter fun p => p.1 ∈ names }

def clearParams (u : RelativeUrl) : RelativeUrl := { u with params := [] }

def appendPath (u : RelativeUrl) (segment : String) : RelativeUrl :=
  { u with
    path := u.path ++ "/" ++ String.ofList (Text.Percent.encodeSegment segment.toList) }

def queryText (u : RelativeUrl) : String :=
  if u.params.isEmpty then "" else "?" ++ String.ofList (Url.writeQuery u.params)

def fragmentText (u : RelativeUrl) : String := if u.fragment = "" then "" else "#" ++ u.fragment

def text (u : RelativeUrl) : String := u.path ++ u.queryText ++ u.fragmentText

end RelativeUrl

end DocumentApi
