import DocumentApi.Filter.Form
import DocumentApi.Page
import DocumentApi.Text.Pieces

/-!
The query of a list request: a filter, the fields to show, the order, and the page.
-/

set_option autoImplicit false

namespace DocumentApi

/-- The parts between the commas, each comma taken together with the blanks after it; `afterComma`
tells that no more than these have been read since the last one. -/
def commaParts (afterComma : Bool) : List Char → List (List Char)
  | [] => [[]]
  | c :: rest =>
    if c = ',' then [] :: commaParts true rest
    else if afterComma && Text.isBlank c then commaParts true rest
    else
      match commaParts false rest with
      | [] => [[c]]
      | first :: others => (c :: first) :: others

def commaItems (s : String) : List String :=
  (((commaParts false (Text.strip s.toList)).map Text.strip).filter (!·.isEmpty)).map String.ofList

def commaList? : Value → Option (List String)
  | .string s => some (commaItems s)
  | _ => none

structure ListQuery where
  filters : Option (Record Value)
  fields : Option (List String)
  sort : Option (List String)
  page : PageRequest
deriving DecidableEq, Repr

structure QuerySettings where
  limits : PageLimits
  form : FilterForm
  filtersKey : String
  fieldsKey : String
  sortKey : String
  pageKey : String
deriving DecidableEq, Repr

namespace QuerySettings

def standard : QuerySettings :=
  ⟨PageLimits.standard, .deepObject false, "filters", "fields", "sort", "page"⟩

def listOf (pairs : DeepObject.Pairs) (name : String) : Option (List String) :=
  (FilterForm.last? pairs name).bind commaList?

def fields (s : QuerySettings) (pairs : DeepObject.Pairs) : Option (List String) :=
  listOf pairs s.fieldsKey

def page (s : QuerySettings) (pairs : DeepObject.Pairs) : Answer PageRequest := do
  let page := (← DeepObject.decode pairs s.pageKey).getD []
  PageRequest.clamped ((page.get? "size").getD .null) ((page.get? "number").getD .null) s.limits

def parse (s : QuerySettings) (pairs : DeepObject.Pairs) : Answer ListQuery := do
  let filters ← s.form.extract pairs s.filtersKey
  return ⟨filters, s.fields pairs, listOf pairs s.sortKey, ← s.page pairs⟩

end QuerySettings

end DocumentApi
