import DocumentApi.Url.Authority

/-!
An address cut into its parts. Scheme and authority are cut off and, once the authority is found to
be well-formed, forgotten; tabs and line ends count for nothing anywhere.
-/

set_option autoImplicit false

namespace DocumentApi.Url

open Text

structure Parts where
  path : List Char
  query : List Char
  fragment : List Char
deriving DecidableEq, Repr

/-- The text without controls and spaces in front, and without tabs and line ends. -/
def clean (cs : List Char) : List Char :=
  (cs.dropWhile fun c => c.toNat ≤ 0x20).filter fun c => c ≠ '\t' && c ≠ '\n' && c ≠ '\r'

def isLetter (c : Char) : Bool := ('a' ≤ c && c ≤ 'z') || ('A' ≤ c && c ≤ 'Z')

def isSchemeChar (c : Char) : Bool :=
  isLetter c || Numeral.isPlainDigit c || c = '+' || c = '-' || c = '.'

/-- What follows a scheme, or the whole text if it has none. -/
def dropScheme (cs : List Char) : List Char :=
  match cut ':' cs with
  | (scheme, some rest) =>
    if scheme.head?.any isLetter && scheme.all isSchemeChar then rest else cs
  | (_, none) => cs

def endsAuthority (c : Char) : Bool := c = '/' || c = '?' || c = '#'

def cutAuthority : List Char → List Char × List Char
  | '/' :: '/' :: rest => (rest.takeWhile (!endsAuthority ·), rest.dropWhile (!endsAuthority ·))
  | cs => ([], cs)

def Parts.ofTail (cs : List Char) : Parts :=
  let (body, fragment) := cut '#' cs
  let (path, query) := cut '?' body
  ⟨path, query.getD [], fragment.getD []⟩

def Parts.ofText (cs : List Char) : Answer Parts := do
  let (authority, rest) := cutAuthority (dropScheme (clean cs))
  checkAuthority authority
  return Parts.ofTail rest

end DocumentApi.Url
