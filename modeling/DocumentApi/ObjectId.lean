import DocumentApi.Text.Percent
import DocumentApi.Text.Quoted

/-!
Identifiers of twelve octets, written as twenty-four digits in base sixteen.
-/

set_option autoImplicit false

namespace DocumentApi

structure ObjectId where
  bits : BitVec 96
deriving DecidableEq, Repr, Inhabited

namespace ObjectId

def ofNat (n : Nat) : ObjectId := ⟨BitVec.ofNat 96 n⟩

def text (id : ObjectId) : String := String.ofList (Text.hexText 24 id.bits.toNat)

def hexNumber? (cs : List Char) : Option Nat :=
  cs.foldlM (fun n c => (Text.Percent.hexValue? c).map (16 * n + ·)) 0

def ofHex? (s : String) : Option ObjectId :=
  if s.toList.length = 24 then (hexNumber? s.toList).map ofNat else none

theorem hexValue?_hexDigit (n : Nat) :
    Text.Percent.hexValue? (Text.hexDigit n) = some (n % 16) := by
  have h : ∀ k < 16, Text.Percent.hexValue? (Text.hexDigit k) = some k := by decide
  have hmod : Text.hexDigit n = Text.hexDigit (n % 16) := by simp [Text.hexDigit]
  rw [hmod]
  exact h (n % 16) (Nat.mod_lt n (by decide))

end ObjectId

end DocumentApi
