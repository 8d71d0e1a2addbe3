import DocumentApi.Store.Report

/-!
Faults of the store by their cause, and the kind of problem that each is reported as. A fault is
reported as what caused it, unless the server tells a duplicate by its code alone. Main statement:
`report_byCause`.
-/

set_option autoImplicit false

namespace DocumentApi

/-- What a fault that is no problem yet comes from: a document that is there already, one that the
store cannot take, or anything else. -/
inductive Cause where
  | duplicate
  | misshapen
  | unexpected
deriving DecidableEq, Repr

namespace Cause

def kind : Cause → ProblemKind
  | duplicate => .conflict
  | misshapen => .documentShape
  | unexpected => .server

/-- A problem of the kind that clients are told a cause by, and of its status: 409, 400 or 500. -/
def ReportedAs (cause : Cause) (p : Problem) : Prop :=
  p.kind = cause.kind ∧ p.status = cause.kind.defaultStatus

instance (cause : Cause) (p : Problem) : Decidable (cause.ReportedAs p) :=
  inferInstanceAs (Decidable (_ ∧ _))

theorem kind_injective : Function.Injective kind := by
  intro cause other h
  cases cause <;> cases other <;> first | rfl | cases h

/-- A problem has one cause at most. -/
theorem reportedAs_iff {cause other : Cause} {p : Problem} (h : cause.ReportedAs p) :
    other.ReportedAs p ↔ other = cause := by
  constructor
  · intro hother
    exact kind_injective (hother.1.symm.trans h.1)
  · intro heq
    exact heq ▸ h

end Cause

namespace StoreFault

def duplicateCode : Int := 11000

/-- What happened, whatever the class of the fault that tells it; a problem comes from elsewhere. -/
def cause? : StoreFault → Option Cause
  | problem _ => none
  | duplicateKey .. => some .duplicate
  | operation _ _ code _ =>
    if code = some duplicateCode then some .duplicate
    else if (codeName? code).isSome then some .misshapen
    else some .unexpected
  | invalidId _ => some .misshapen
  | missingKey _ | other .. => some .unexpected

/-- A duplicate that only the code of a general fault tells of. -/
def IsCodedDuplicate : StoreFault → Prop
  | operation _ _ code _ => code = some duplicateCode
  | _ => False

instance : DecidablePred IsCodedDuplicate := fun fault =>
  match fault with
  | operation _ _ code _ => inferInstanceAs (Decidable (code = some duplicateCode))
  | problem _ | invalidId _ | duplicateKey .. | missingKey _ | other .. => isFalse id

def details : StoreFault → Value
  | duplicateKey _ _ details | operation _ _ _ details => details
  | problem _ | invalidId _ | missingKey _ | other .. => .null

/-- Nothing, or a record in which the clashing keys, if they are there, make a record. -/
def Telling (details : Value) : Prop :=
  details = .null ∨ ∃ fields : Record Value, details = .object fields ∧
    ∀ keys, fields.get? "keyValue" = some keys → ∃ clashing, keys = .object clashing

/-- The cause that a fault is reported as. -/
def shownCause? (fault : StoreFault) : Option Cause :=
  if fault.IsCodedDuplicate then some .misshapen else fault.cause?

theorem clashingKeys_of_telling {details : Value} (h : Telling details) :
    ∃ keys, clashingKeys details = .ok keys := by
  unfold clashingKeys
  rcases h with rfl | ⟨fields, rfl, hkeys⟩
  · exact ⟨_, rfl⟩
  · have hdetail : detail? (.object fields) "keyValue" = (fields.get? "keyValue").getD .null := rfl
    rw [hdetail]
    cases hfound : fields.get? "keyValue" with
    | none => exact ⟨_, rfl⟩
    | some keys =>
      obtain ⟨clashing, rfl⟩ := hkeys keys hfound
      simp only [Option.getD_some]
      split
      · exact ⟨clashing, rfl⟩
      · exact ⟨_, rfl⟩

theorem conflict_of_telling {details : Value} (h : Telling details) (entity : String) :
    ∃ p, conflict details entity = .ok p ∧ Cause.duplicate.ReportedAs p := by
  obtain ⟨keys, hkeys⟩ := clashingKeys_of_telling h
  rw [conflict, hkeys]
  exact ⟨_, rfl, rfl, rfl⟩

/-- A general fault is reported by its code: as unexpected if that has no name. -/
theorem report_operation (name message : String) (code : Option Int) (details : Value)
    (entity : String) :
    ∃ p log, (operation name message code details).report entity = .ok (p, log) ∧
      (if (codeName? code).isSome then Cause.misshapen else Cause.unexpected).ReportedAs p := by
  unfold report
  by_cases hshape : code = some shapeFaultCode
  · subst hshape
    exact ⟨_, _, if_pos rfl, rfl, rfl⟩
  · simp only [if_neg hshape]
    cases codeName? code with
    | none => exact ⟨_, _, rfl, rfl, rfl⟩
    | some codeName => exact ⟨_, _, rfl, rfl, rfl⟩

theorem shownCause?_operation (name message : String) (code : Option Int) (details : Value) :
    (operation name message code details).shownCause? =
      some (if (codeName? code).isSome then .misshapen else .unexpected) := by
  by_cases hcode : code = some duplicateCode
  · subst hcode
    rfl
  · have hother : ¬ (operation name message code details).IsCodedDuplicate := hcode
    rw [shownCause?, if_neg hother, cause?, if_neg hcode]
    split <;> rfl

/-- What a fault is reported as. -/
theorem report_shownCause {fault : StoreFault} (h : Telling fault.details) (entity : String) :
    ∃ p log, fault.report entity = .ok (p, log) ∧
      match fault.shownCause? with
      | none => fault = .problem p
      | some cause => cause.ReportedAs p := by
  cases fault with
  | problem p => exact ⟨p, [], rfl, rfl⟩
  | invalidId message => exact ⟨_, _, rfl, rfl, rfl⟩
  | duplicateKey message code details =>
    obtain ⟨p, hconflict, hp⟩ := conflict_of_telling h entity
    refine ⟨p, [], ?_, hp⟩
    change conflict details entity = .ok p at hconflict
    rw [report, hconflict]
    rfl
  | operation name message code details =>
    obtain ⟨p, log, hreport, hp⟩ := report_operation name message code details entity
    rw [shownCause?_operation]
    exact ⟨p, log, hreport, hp⟩
  | missingKey key => exact ⟨_, _, rfl, rfl, rfl⟩
  | other name message => exact ⟨_, _, rfl, rfl, rfl⟩

/-- Every fault is reported as a problem, which stays as it is when it is reported again. A problem is
reported as itself; any other fault as its cause and no other, except for a duplicate that only its
code tells of, which is reported as a document that the store cannot take. -/
theorem report_byCause {fault : StoreFault} (h : Telling fault.details) (entity : String) :
    ∃ p log, fault.report entity = .ok (p, log) ∧
      (∀ other, (StoreFault.problem p).report other = .ok (p, [])) ∧
      (∀ told, fault = .problem told → p = told) ∧
      ((∀ told, fault ≠ .problem told) → ∀ cause : Cause, cause.ReportedAs p ↔
        if fault.IsCodedDuplicate then cause = .misshapen else fault.cause? = some cause) := by
  obtain ⟨p, log, hreport, hp⟩ := report_shownCause h entity
  refine ⟨p, log, hreport, fun _ => rfl, ?_, ?_⟩
  · intro told htold
    subst htold
    cases hreport
    rfl
  · intro hfault cause
    cases hshown : fault.shownCause? with
    | none =>
      rw [hshown] at hp
      exact absurd hp (hfault p)
    | some shown =>
      rw [hshown] at hp
      rw [Cause.reportedAs_iff hp]
      unfold shownCause? at hshown
      split
      · rename_i hcoded
        rw [if_pos hcoded] at hshown
        cases hshown
        exact Iff.rfl
      · rename_i hcoded
        rw [if_neg hcoded] at hshown
        rw [hshown, Option.some.injEq, eq_comm]

/-- A duplicate with all that the server can tell of it, by its class. -/
def clash : StoreFault :=
  .duplicateKey "E11000 duplicate key" (some 11000)
    (.object [("keyPattern", .object [("name", .int 1)]),
      ("keyValue", .object [("name", .string "Tom"), ("age", .int 3)])])

def clashProblem : Problem :=
  Problem.of .conflict
    "A document with the keys (name: \"Tom\"), (age: 3) already exist for entity \"cat\""

theorem telling_clash : Telling clash.details := by
  refine .inr ⟨_, rfl, ?_⟩
  intro keys hkeys
  cases hkeys
  exact ⟨_, rfl⟩

theorem report_byCause_clash :
    Telling clash.details ∧ clash.report "cat" = .ok (clashProblem, []) ∧
    (∀ told, clash ≠ .problem told) ∧
    ∀ cause : Cause, cause.ReportedAs clashProblem ↔ some .duplicate = some cause := by
  have hgiven : clash.report "cat" = .ok (clashProblem, []) := rfl
  have hfault : ∀ told, clash ≠ .problem told := by
    intro told h
    cases h
  obtain ⟨p, log, hreport, -, -, hcause⟩ := report_byCause telling_clash "cat"
  rw [hgiven] at hreport
  cases hreport
  exact ⟨telling_clash, hgiven, hfault, hcause hfault⟩

def codedClash : StoreFault :=
  .operation "OperationFailure" "E11000 duplicate key" (some 11000)
    (.object [("keyValue", .object [("name", .string "Tom")])])

/-- The same told by the code of a general fault is reported as something else. -/
theorem report_codedClash :
    Telling codedClash.details ∧ codedClash.cause? = some .duplicate ∧
    ∃ p, codedClash.report "cat" = .ok (p, []) ∧ Cause.misshapen.ReportedAs p ∧
      p.title = "Duplicate Key" ∧ ¬ Cause.duplicate.ReportedAs p := by
  refine ⟨.inr ⟨_, rfl, ?_⟩, rfl, _, rfl, ⟨rfl, rfl⟩, rfl, ?_⟩
  · intro keys hkeys
    cases hkeys
    exact ⟨_, rfl⟩
  · intro h
    cases h.1

end StoreFault

end DocumentApi
