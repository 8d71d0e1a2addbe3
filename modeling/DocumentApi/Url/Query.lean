import DocumentApi.Sorting
import DocumentApi.Text.Percent
import DocumentApi.Text.Pieces

/-!
The query of an address as a list of named values, and its written form, in which the names are in
order.
-/

set_option autoImplicit false

namespace DocumentApi.Url

open Text

abbrev Param := String × String

def decodeText (cs : List Char) : String := String.ofList (Percent.decodeForm cs)

def encodeText (s : String) : List Char := Percent.encodeForm s.toList

def readParam (cs : List Char) : Param :=
  let (name, value) := cut '=' cs
  (decodeText name, decodeText (value.getD []))

def readQuery (cs : List Char) : List Param :=
  ((pieces '&' cs).filter (!·.isEmpty)).map readParam

def writeParam (p : Param) : List Char := encodeText p.1 ++ '=' :: encodeText p.2

/-- By the names; values of one name keep their order. -/
def sortParams (params : List Param) : List Param :=
  sortBy (fun a b : String => decide (a ≤ b)) (·.1) params

def writeQuery (params : List Param) : List Char :=
  List.intercalate ['&'] ((sortParams params).map writeParam)

end DocumentApi.Url
