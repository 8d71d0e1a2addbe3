import DocumentApi.Page
import DocumentApi.Url.Relative

/-!
Links between the pages of a list. All other parameters of the address are kept.
-/

set_option autoImplicit false

namespace DocumentApi

structure PageLinks where
  totalPages : Int
  current : String
  first : String
  last : String
  next : Option String
  previous : Option String
deriving DecidableEq, Repr

namespace PageLinks

def sizeParam : String := "page[size]"

def numberParam : String := "page[number]"

def currentUrl (page : PageRequest) (url : RelativeUrl) : RelativeUrl :=
  (url.setParam sizeParam (toString page.size)).setParam numberParam (toString page.current)

def linkTo (page : PageRequest) (url : RelativeUrl) (number : Int) : String :=
  ((currentUrl page url).setParam numberParam (toString number)).text

def ofPages (pages : Int) (page : PageRequest) (url : RelativeUrl) : PageLinks where
  totalPages := pages
  current := (currentUrl page url).text
  first := linkTo page url 1
  last := linkTo page url pages
  next := if page.current < pages then some (linkTo page url (page.current + 1)) else none
  previous := if 1 < page.current then some (linkTo page url (page.current - 1)) else none

def ofUrl (count : Int) (page : PageRequest) (url : RelativeUrl) : Answer PageLinks := do
  let pages ← DocumentApi.totalPages count page.size
  return ofPages pages page url

/-- The links of a page at an address still to be read. -/
def ofText (count : Int) (page : PageRequest) (address : String) : Answer PageLinks := do
  let pages ← DocumentApi.totalPages count page.size
  let url ← RelativeUrl.ofText address
  return ofPages pages page url

end PageLinks

end DocumentApi
