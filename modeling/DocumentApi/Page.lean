import DocumentApi.Failure

/-!
Pages of a list: how many items a page holds and which page is asked for, counted from one. Raw
values of a request are forced into the bounds that the resource sets.
-/

set_option autoImplicit false

namespace DocumentApi

/-- The integer that a raw value stands for, if any; an infinite one stands for none at all. -/
def integerOf : Value → Answer (Option Int)
  | .bool b => .ok (some (if b then 1 else 0))
  | .int i => .ok (some i)
  | .float (.infinite _) => .error .infiniteInteger
  | .float x => .ok x.truncate?
  | .string s => .ok (Numeral.readInt s.toList).toOption
  | _ => .ok none

def atLeast (minimum : Option Int) (i : Int) : Int := minimum.elim i (max · i)

def atMost (maximum : Option Int) (i : Int) : Int := maximum.elim i (min · i)

/-- The value as an integer between the bounds, of which the upper one wins; what stands for no
integer is replaced by the fallback first. -/
def bound (minimum : Option Int) (value : Value) (maximum : Option Int) (fallback : Int) :
    Answer Int :=
  (integerOf value).map fun i => atMost maximum (atLeast minimum (i.getD fallback))

structure PageRequest where
  size : Nat
  current : Nat
  size_pos : 1 ≤ size
  current_pos : 1 ≤ current
deriving DecidableEq, Repr

structure PageLimits where
  default : Int
  max : Option Int
deriving DecidableEq, Repr

def PageLimits.standard : PageLimits := ⟨10, some 200⟩

namespace PageRequest

def ofInts (size current : Int) : Answer PageRequest :=
  if hs : size < 1 then .error (.pageSize size)
  else if hc : current < 1 then .error (.pageNumber current)
  else .ok ⟨size.toNat, current.toNat, by omega, by omega⟩

def offset (p : PageRequest) : Nat := (p.current - 1) * p.size

def clamped (size number : Value) (limits : PageLimits) : Answer PageRequest := do
  let size ← bound (some 1) size limits.max limits.default
  let current ← bound (some 1) number none 1
  ofInts size current

end PageRequest

/-- The least number of pages that hold all items, by way of a rounded quotient. -/
def totalPages (count size : Int) : Answer Int :=
  if size = 0 then .error .divisionByZero
  else
    match (Binary64.ofQuotient ((count < 0) != (size < 0)) count.natAbs size.natAbs).ceil? with
    | some pages => .ok pages
    | none => .error .quotientTooLarge

end DocumentApi
