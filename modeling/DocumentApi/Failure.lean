import DocumentApi.Number.Numeral
import DocumentApi.Problem

/-!
Every cause for which an operation gives no answer. Problems are meant for the client; a store
reports faults of its own; the rest are requests or settings that make no sense.
-/

set_option autoImplicit false

namespace DocumentApi

inductive StoreFault where
  | problem (p : Problem)
  | invalidId (message : String)
  | duplicateKey (message : String) (code : Option Int) (details : Value)
  | operation (name message : String) (code : Option Int) (details : Value)
  | missingKey (key : String)
  | other (name message : String)
deriving DecidableEq, Repr, Inhabited

namespace StoreFault

def malformedId (id : String) : StoreFault :=
  invalidId
    (Text.quoted id
      ++ " is not a valid ObjectId, it must be a 12-byte input or a 24-character hex string")

/-- The server's message, with all that it said if it said more. -/
def withDetails (message : String) (details : Value) : String :=
  if details = .null then message else message ++ ", full error: " ++ details.display

def text : StoreFault → String
  | problem p => p.message
  | invalidId message => message
  | duplicateKey message _ details => withDetails message details
  | operation _ message _ details => withDetails message details
  | missingKey key => Text.quoted key
  | other _ message => message

/-- The name of the class of faults, which titles a problem when nothing better is known. -/
def className : StoreFault → String
  | problem _ => "Problem"
  | invalidId _ => "InvalidId"
  | duplicateKey .. => "DuplicateKeyError"
  | operation name .. => name
  | missingKey _ => "KeyError"
  | other name _ => name

end StoreFault

inductive UrlFault where
  | misplacedBracket
  | badFutureAddress
  | notAnAddress (host : String)
  | bracketedIpv4
  | confusingAuthority (authority : String)
deriving DecidableEq, Repr

def UrlFault.message : UrlFault → String
  | misplacedBracket => "Invalid IPv6 URL"
  | badFutureAddress => "IPvFuture address is invalid"
  | notAnAddress host => Text.quoted host ++ " does not appear to be an IPv4 or IPv6 address"
  | bracketedIpv4 => "An IPv4 address cannot be in brackets"
  | confusingAuthority authority =>
    "netloc '" ++ authority ++ "' contains invalid characters under NFKC normalization"

inductive Failure where
  | problem (p : Problem)
  | store (fault : StoreFault)
  | unknownOperator (token : Value)
  | unknownAction (name : String)
  | unknownCapability (name : String)
  | pageSize (n : Int)
  | pageNumber (n : Int)
  | infiniteInteger
  | numeral (source : String) (fault : Numeral.IntFault)
  | divisionByZero
  | quotientTooLarge
  | url (fault : UrlFault)
  | missingField (name : String)
  | severalEntries
  | noCollection
  | badOptions (locations : List (List String))
  | relativePath
  | openPath
  | unknownParamKind (name : String)
  | repeatedParams (names : List String) (path : String)
  | outOfRangeNumber
  | notSerializable
  | notLatin1
  | wrongType
  | notARecord
deriving DecidableEq, Repr, Inhabited

namespace Failure

def ofProblem (kind : ProblemKind) (detail : String) : Failure := problem (Problem.of kind detail)

/-- A fault of the store that is a problem already is one for the client too. -/
def problem? : Failure → Option Problem
  | problem p | store (.problem p) => some p
  | _ => none

def quotedPrefix (s : String) (limit : Nat) : String :=
  String.ofList ((Text.quoted s).toList.take limit)

def locationText (location : List String) : String := String.intercalate "." location

def message : Failure → String
  | problem p => p.message
  | store fault => fault.text
  | unknownOperator token => "Unknown filter operator: " ++ token.display
  | unknownAction name => Text.quoted name ++ " is not a valid InvalidFilterAction"
  | unknownCapability name => Text.quoted name ++ " is not a valid Capability"
  | pageSize n => "page size must be >= 1, got " ++ toString n
  | pageNumber n => "page number must be >= 1, got " ++ toString n
  | infiniteInteger => "cannot convert float infinity to integer"
  | numeral source fault => fault.message (quotedPrefix source 200)
  | divisionByZero => "division by zero"
  | quotientTooLarge => "integer division result too large for a float"
  | url fault => fault.message
  | missingField name => Text.quoted name
  | severalEntries => "too many values to unpack (expected 1)"
  | noCollection => "A collection is required"
  | badOptions locations => String.intercalate ", " (locations.map locationText)
  | relativePath => "A path prefix must start with '/'"
  | openPath => "A path prefix must not end with '/', as the routes will start with '/'"
  | unknownParamKind name => "Unknown path convertor '" ++ name ++ "'"
  | repeatedParams names path =>
    "Duplicated param name" ++ (if 1 < names.length then "s " else " ")
      ++ String.intercalate ", " names ++ " at path " ++ path
  | outOfRangeNumber => "Out of range float values are not JSON compliant"
  | notSerializable => "the value has no JSON form"
  | notLatin1 => "the header has characters outside of Latin-1"
  | wrongType => "a value of another type is required"
  | notARecord => "a record is required"

end Failure

abbrev Answer (α : Type) := Except Failure α

namespace Answer

variable {α β : Type}

theorem ok_bind (a : α) (f : α → Answer β) : ((.ok a : Answer α) >>= f) = f a := rfl

theorem error_bind (failure : Failure) (f : α → Answer β) :
    ((.error failure : Answer α) >>= f) = .error failure := rfl

theorem bind_eq_ok {answer : Answer α} {f : α → Answer β} {b : β} :
    (answer >>= f) = .ok b ↔ ∃ a, answer = .ok a ∧ f a = .ok b := by
  cases answer with
  | ok a => simp [ok_bind]
  | error failure => simp [error_bind]

theorem bind_eq_error {answer : Answer α} {f : α → Answer β} {failure : Failure} :
    (answer >>= f) = .error failure ↔
      answer = .error failure ∨ ∃ a, answer = .ok a ∧ f a = .error failure := by
  cases answer with
  | ok a => simp [ok_bind]
  | error earlier => simp [error_bind]

theorem map_eq_ok {answer : Answer α} {f : α → β} {b : β} :
    f <$> answer = .ok b ↔ ∃ a, answer = .ok a ∧ f a = b := by
  cases answer with
  | ok a => simp [Functor.map, Except.map]
  | error failure => simp [Functor.map, Except.map]

theorem map_eq_error {answer : Answer α} {f : α → β} {failure : Failure} :
    f <$> answer = .error failure ↔ answer = .error failure := by
  cases answer with
  | ok a => simp [Functor.map, Except.map]
  | error earlier => simp [Functor.map, Except.map]

theorem mapM_eq_some {value : Option α} {f : α → Answer β} {b : β}
    (h : value.mapM f = .ok (some b)) : ∃ a, value = some a ∧ f a = .ok b := by
  cases value with
  | none => cases h
  | some a =>
    obtain ⟨_, hf, hb⟩ := map_eq_ok.mp h
    exact ⟨a, rfl, Option.some.inj hb ▸ hf⟩

/-- The failure is that of the first element that fails; what follows it does not matter. -/
theorem mapM_eq_error_iff {f : α → Answer β} {as : List α} {failure : Failure} :
    as.mapM f = .error failure ↔ ∃ before a after, as = before ++ a :: after ∧
      (∀ b ∈ before, ∃ c, f b = .ok c) ∧ f a = .error failure := by
  induction as with
  | nil =>
    constructor
    · intro h
      cases h
    · rintro ⟨before, a, after, h, -⟩
      simp at h
  | cons first rest ih =>
    rw [List.mapM_cons, bind_eq_error]
    constructor
    · rintro (hfails | ⟨c, hfirst, h⟩)
      · exact ⟨[], first, rest, rfl, by simp, hfails⟩
      · rcases bind_eq_error.mp h with hrest | ⟨_, _, hdone⟩
        · obtain ⟨before, a, after, rfl, hbefore, hfails⟩ := ih.mp hrest
          exact ⟨first :: before, a, after, rfl,
            List.forall_mem_cons.mpr ⟨⟨c, hfirst⟩, hbefore⟩, hfails⟩
        · cases hdone
    · rintro ⟨before, a, after, heq, hbefore, hfails⟩
      cases before with
      | nil =>
        cases heq
        exact Or.inl hfails
      | cons b before =>
        cases heq
        obtain ⟨⟨c, hfirst⟩, hbefore⟩ := List.forall_mem_cons.mp hbefore
        have hrest := ih.mpr ⟨before, a, after, rfl, hbefore, hfails⟩
        exact Or.inr ⟨c, hfirst, bind_eq_error.mpr (Or.inl hrest)⟩

theorem exists_of_mapM_eq_error {f : α → Answer β} {as : List α} {failure : Failure}
    (h : as.mapM f = .error failure) : ∃ a ∈ as, f a = .error failure := by
  obtain ⟨before, a, after, rfl, -, hfailed⟩ := mapM_eq_error_iff.mp h
  exact ⟨a, List.mem_append_right before List.mem_cons_self, hfailed⟩

theorem exists_of_mapM_eq_ok {f : α → Answer β} {as : List α} {bs : List β}
    (h : as.mapM f = .ok bs) : ∀ a ∈ as, ∃ b, f a = .ok b := by
  induction as generalizing bs with
  | nil => simp
  | cons a rest ih =>
    rw [List.mapM_cons] at h
    obtain ⟨b, hfirst, h⟩ := bind_eq_ok.mp h
    obtain ⟨others, hrest, -⟩ := bind_eq_ok.mp h
    intro c hc
    rcases List.mem_cons.mp hc with rfl | hc
    · exact ⟨b, hfirst⟩
    · exact ih hrest c hc

end Answer

end DocumentApi
