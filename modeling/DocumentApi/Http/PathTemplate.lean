import DocumentApi.Failure
import DocumentApi.Sorting
import DocumentApi.Text.Percent
import DocumentApi.Text.Pieces

/-!
Paths with parameters: text in which a name in braces stands for a part of the path. A kind after
the name and a colon tells which parts; without one, the part is any text within one segment.
-/

set_option autoImplicit false

namespace DocumentApi.Http

open Text

inductive ParamKind where
  | segment
  /-- Any text in one line, slashes included. -/
  | path
  | integer
  | decimal
  | uuid
deriving DecidableEq, Repr, Inhabited

inductive PathPiece where
  | literal (text : List Char)
  | param (name : String) (kind : ParamKind)
deriving DecidableEq, Repr

structure PathParam where
  name : String
  kind : ParamKind
  text : List Char
deriving DecidableEq, Repr

abbrev PathParams := List PathParam

namespace ParamKind

def ofName? : String → Option ParamKind
  | "str" => some segment
  | "path" => some path
  | "int" => some integer
  | "float" => some decimal
  | "uuid" => some uuid
  | _ => none

def downTo (least most : Nat) : List Nat :=
  ((List.range (most + 1 - least)).map (least + ·)).reverse

theorem mem_downTo {least most n : Nat} : n ∈ downTo least most ↔ least ≤ n ∧ n ≤ most := by
  simp only [downTo, List.mem_reverse, List.mem_map, List.mem_range]
  constructor
  · rintro ⟨k, hk, rfl⟩
    omega
  · intro h
    exact ⟨n - least, by omega, by omega⟩

def leading (p : Char → Bool) (cs : List Char) : Nat := (cs.takeWhile p).length

/-- The length of groups of so many digits in base sixteen, each maybe with a hyphen before the
next. -/
def groupsLength? : List Nat → List Char → Option Nat
  | [], _ => some 0
  | size :: sizes, cs =>
    if size ≤ leading Percent.isHexDigit cs then
      let hyphen := if sizes ≠ [] ∧ (cs.drop size).head? = some '-' then 1 else 0
      (groupsLength? sizes (cs.drop (size + hyphen))).map (size + hyphen + ·)
    else none

def lengths (kind : ParamKind) (cs : List Char) : List Nat :=
  match kind with
  | segment => downTo 1 (leading (· ≠ '/') cs)
  | path => downTo 0 (leading (· ≠ '\n') cs)
  | integer => downTo 1 (leading Numeral.isPlainDigit cs)
  | decimal =>
    let whole := leading Numeral.isPlainDigit cs
    match cs.drop whole with
    | '.' :: rest =>
      if whole = 0 then []
      else (downTo 1 (leading Numeral.isPlainDigit rest)).map (whole + 1 + ·) ++ downTo 1 whole
    | _ => downTo 1 whole
  | uuid => (groupsLength? [8, 4, 4, 4, 12] cs).toList

end ParamKind

def PathParam.check (p : PathParam) : Answer Unit :=
  if p.kind = .integer then
    match Numeral.readInt p.text with
    | .ok _ => .ok ()
    | .error fault => .error (.numeral (String.ofList p.text) fault)
  else .ok ()

structure PathTemplate where
  text : String
  pieces : List PathPiece
deriving DecidableEq, Repr

namespace PathTemplate

def isNameStart (c : Char) : Bool := c.isAlpha || c = '_'

def isNameChar (c : Char) : Bool := c.isAlphanum || c = '_'

def isName (cs : List Char) : Bool := cs.head?.any isNameStart && cs.all isNameChar

/-- What braces enclose, as the name of a parameter and of its kind. -/
def paramNames? (cs : List Char) : Option (String × String) :=
  let (name, kind) := cut ':' cs
  if isName name && kind.all isName then
    some (String.ofList name, String.ofList (kind.getD "str".toList))
  else none

/-- The pieces of a path. Both the text since the last parameter and the text since an opening
brace are in reverse; braces that enclose no parameter are text. -/
def piecesFrom (before : List Char) (inner : Option (List Char)) :
    List Char → Answer (List PathPiece)
  | [] => return [.literal (inner.elim before (· ++ '\x7b' :: before)).reverse]
  | c :: rest =>
    match inner with
    | none =>
      if c = '\x7b' then piecesFrom before (some []) rest else piecesFrom (c :: before) none rest
    | some inner =>
      if c = '\x7b' then piecesFrom (inner ++ '\x7b' :: before) (some []) rest
      else if c = '\x7d' then
        match paramNames? inner.reverse with
        | none => piecesFrom ('\x7d' :: inner ++ '\x7b' :: before) none rest
        | some (name, kindName) =>
          match ParamKind.ofName? kindName with
          | none => .error (.unknownParamKind kindName)
          | some kind => do
            return .literal before.reverse :: .param name kind :: (← piecesFrom [] none rest)
      else piecesFrom before (some (c :: inner)) rest

def PathPiece.name? : PathPiece → Option String
  | .literal _ => none
  | .param name _ => some name

def names (pieces : List PathPiece) : List String := pieces.filterMap PathPiece.name?

def repeated (names : List String) : List String :=
  sortBy (fun a b => decide (a ≤ b)) id (names.filter fun name => 1 < names.count name).eraseDups

/-- The template that a text writes; no parameter may occur twice. -/
def ofText (text : String) : Answer PathTemplate := do
  let pieces ← piecesFrom [] none text.toList
  match repeated (names pieces) with
  | [] => return ⟨text, pieces⟩
  | names => throw (.repeatedParams names text)

/-- One line end after the path counts for nothing, unless a parameter takes it. -/
def matchPieces? : List PathPiece → List Char → Option PathParams
  | [], rest => if rest = [] ∨ rest = ['\n'] then some [] else none
  | .literal text :: pieces, path => (dropStart? text path).bind (matchPieces? pieces)
  | .param name kind :: pieces, path =>
    (kind.lengths path).findSome? fun n =>
      (matchPieces? pieces (path.drop n)).map (⟨name, kind, path.take n⟩ :: ·)

/-- The parameters with which a path is of the template; earlier ones take all they can. -/
def params? (t : PathTemplate) (path : String) : Answer (Option PathParams) :=
  match matchPieces? t.pieces path.toList with
  | none => .ok none
  | some params => do
    params.forM PathParam.check
    return some params

example : (piecesFrom [] none "/\x7ba\x7d/\x7b\x7bb:int\x7d\x7b1\x7d".toList).toOption =
    some [.literal ['/'], .param "a" .segment, .literal ['/', '\x7b'], .param "b" .integer,
      .literal ['\x7b', '1', '\x7d']] := by
  decide +kernel
example : (matchPieces? [.literal ['/'], .param "a" .segment, .literal ['-'], .param "b" .segment]
    "/x-y-z".toList).map (·.map (·.text)) = some ["x-y".toList, ['z']] := by
  decide +kernel
example : ParamKind.lengths .decimal "12.34x".toList = [5, 4, 2, 1] := by decide +kernel

end PathTemplate

end DocumentApi.Http
