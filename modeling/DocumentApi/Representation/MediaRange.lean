import DocumentApi.Number.Numeral
import DocumentApi.Sorting
import DocumentApi.Text.Lowercase
import DocumentApi.Text.Pieces

/-!
The media ranges that a client accepts, the best first.
-/

set_option autoImplicit false

namespace DocumentApi

open Text

structure MediaRange where
  mediaType : String
  quality : Binary64
  position : Nat
deriving DecidableEq, Repr

namespace MediaRange

def one : Binary64 := Binary64.ofQuotient false 1 1

def quality? (param : List Char) : Option Binary64 :=
  let (name, value) := cut '=' param
  if lower (strip name) = ['q'] then
    some ((Numeral.readFloat? (value.getD [])).getD (Binary64.zero false))
  else none

/-- The quality of a range with its parameters, of which the last one counts. -/
def qualityOf (params : List (List Char)) : Binary64 :=
  ((params.map strip).reverse.findSome? quality?).getD one

def ofItem? (item : List Char) (position : Nat) : Option MediaRange :=
  match pieces ';' item with
  | [] => none
  | mediaType :: params =>
    let quality := qualityOf params
    if (strip mediaType).isEmpty || !quality.isPositive then none
    else some ⟨String.ofList (lower (strip mediaType)), quality, position⟩

def items (header : String) : List MediaRange :=
  ((pieces ',' header.toList).zipIdx).filterMap fun item => ofItem? item.1 item.2

/-- The ranges of a header by quality; of the same quality, by position. -/
def ofHeader (header : String) : List MediaRange :=
  sortBy (fun a b : Int => decide (b ≤ a)) (·.quality.rank) (items header)

def isWildcard (r : MediaRange) : Bool := r.mediaType = "*/*" || r.mediaType = "*"

end MediaRange

end DocumentApi
