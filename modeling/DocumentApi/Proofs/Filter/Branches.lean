import DocumentApi.Proofs.Filter.Entries
import Mathlib.Data.List.Forall2

/-!
The filters that a logical operator combines. Their entries are checked one by one, each as a filter
of its own, and yet every one of them comes out as if it had been checked as a whole, by a validator
that knows no logical operators. Main statement: `validate_combination_iff`.
-/

set_option autoImplicit false

namespace DocumentApi

namespace Answer

variable {α β : Type} {f : α → Answer β}

theorem mapM_eq_ok_iff {as : List α} {bs : List β} :
    as.mapM f = .ok bs ↔ List.Forall₂ (fun a b => f a = .ok b) as bs := by
  induction as generalizing bs with
  | nil => cases bs <;> simp [pure, Except.pure]
  | cons a rest ih =>
    rw [List.mapM_cons, bind_eq_ok, List.forall₂_cons_left_iff]
    constructor
    · rintro ⟨b, hfirst, h⟩
      obtain ⟨others, hrest, h⟩ := bind_eq_ok.mp h
      exact ⟨b, others, hfirst, ih.mp hrest, (Except.ok.inj h).symm⟩
    · rintro ⟨b, others, hfirst, hrest, rfl⟩
      exact ⟨b, hfirst, bind_eq_ok.mpr ⟨others, ih.mpr hrest, rfl⟩⟩

end Answer

namespace Validator

variable {v : Validator} {op : LogicalOperator}

/-- A filter that is a logical operator over others. -/
def combination (op : LogicalOperator) (branches : List Value) : Value :=
  .object [((Operator.logical op).token, .list branches)]

/-- Whether the filters under an operator are checked: it is allowed, or it is refused and stays. -/
def LooksInto (v : Validator) (op : LogicalOperator) : Prop :=
  .logical op ∈ v.operators ∨ v.policy = .keep ∧ v.escape = false

/-- What a validator of branches must be: it knows no logical operators, escapes none, is otherwise
like the one for the whole, and checks branches of its own in the same way. -/
structure IsBranchOf (branch whole : Validator) : Prop where
  operators : ∀ op, op ∈ branch.operators ↔ op ∈ whole.operators ∧ op.isLogical = false
  fields : branch.fields = whole.fields
  policy : branch.policy = whole.policy
  unescaped : branch.escape = false
  itself : branch.branch = branch

theorem isBranchOf_branch (v : Validator) : v.branch.IsBranchOf v where
  operators op := by simp [branch]
  fields := rfl
  policy := rfl
  unescaped := rfl
  itself := branch_eq_self v.isOwnBranch_branch

theorem checkKey_of_looksInto (h : v.LooksInto op) :
    v.checkKey (Operator.logical op).token = .ok (some ⟨(Operator.logical op).token, true⟩) := by
  unfold checkKey
  rw [Operator.ofToken?_token]
  rcases h with hallowed | ⟨hkeep, hescape⟩
  · simp [hallowed]
  · simp [hkeep, hescape, RefusalPolicy.refuse]

theorem visitBranches_objects (v : Validator) (branches : List (Record Value)) :
    v.visitBranches (branches.map .object) =
      branches.mapM fun fields => v.branch.validate (.object fields) := by
  induction branches with
  | nil => rfl
  | cons fields rest ih =>
    rw [List.map_cons, visitBranches, List.mapM_cons, visitBranch_object, ih]
    rfl

theorem validate_combination (h : v.LooksInto op) (branches : List (Record Value)) :
    v.validate (combination op (branches.map .object)) =
      combination op <$> branches.mapM fun fields => v.branch.validate (.object fields) := by
  have hlogical := Operator.isLogicalToken_iff.mpr ⟨op, Operator.ofToken?_token _⟩
  rw [combination, validate, visitFields_singleton, visitField, checkKey_of_looksInto h]
  simp only [Answer.ok_bind, if_true, visit, hlogical, visitBranches_objects]
  cases branches.mapM fun fields => v.branch.validate (.object fields) <;> rfl

/-- Filters that are combined are checked as filters of their own: the result has what is left of
each in its place, and the failure is that of the first one that is refused. -/
theorem validate_combination_iff (h : v.LooksInto op) (branches : List (Record Value)) :
    (∀ result, v.validate (combination op (branches.map .object)) = .ok result ↔
      ∃ kept, List.Forall₂ (fun fields left => v.branch.validate (.object fields) = .ok left)
        branches kept ∧ combination op kept = result) ∧
    (∀ failure, v.validate (combination op (branches.map .object)) = .error failure ↔
      ∃ before fields after, branches = before ++ fields :: after ∧
        (∀ earlier ∈ before, ∃ left, v.branch.validate (.object earlier) = .ok left) ∧
        v.branch.validate (.object fields) = .error failure) ∧
    (v.policy ≠ .stop → ∃ result, v.validate (combination op (branches.map .object)) = .ok result) ∧
    v.branch.IsBranchOf v := by
  refine ⟨fun result => ?_, fun failure => ?_, fun hp => exists_validate hp _, v.isBranchOf_branch⟩
  · rw [validate_combination h, Answer.map_eq_ok]
    simp only [Answer.mapM_eq_ok_iff]
  · rw [validate_combination h, Answer.map_eq_error, Answer.mapM_eq_error_iff]

/-- Branches with a logical operator of their own, with a value that becomes a list, and without
anything that is allowed. -/
def nested : List (Record Value) :=
  [[("name", .object [("$in", .string "Tom")])],
    [("$and", .list [.object [("age", .object [("$in", .int 3)])]]), ("age", .null)],
    [("age", .object [("$gt", .int 3)])]]

theorem validate_combination_iff_nested :
    let v : Validator := ⟨[.list .isIn, .logical .or], none, .stop, false⟩
    let checked : List Value :=
      [.object [("name", .object [("$in", .list [.string "Tom"])])],
        .object [("$and", .list [.object [("age", .object [("$in", .list [.int 3])])]]),
          ("age", .null)],
        .object [("age", .object [("$gt", .int 3)])]]
    v.LooksInto .or ∧ (v.under .keep).LooksInto .and ∧
    v.validate (combination .or (nested.map .object)) =
      .error (.problem (Problem.operatorRefused "$and" true)) ∧
    (v.under .keep).validate (combination .and (nested.map .object)) =
      .ok (combination .and checked) := by
  intro v checked
  have hor : v.LooksInto .or := Or.inl (by decide)
  have hand : (v.under .keep).LooksInto .and := Or.inr ⟨rfl, rfl⟩
  refine ⟨hor, hand, ?_, ?_⟩
  · refine ((validate_combination_iff hor nested).2.1 _).mpr ?_
    refine ⟨nested.take 1, _, nested.drop 2, rfl, fun earlier he => ?_, rfl⟩
    cases List.mem_singleton.mp he
    exact ⟨_, rfl⟩
  · refine ((validate_combination_iff hand nested).1 _).mpr ⟨checked, ?_, rfl⟩
    exact .cons rfl (.cons rfl (.cons rfl .nil))

end Validator

end DocumentApi
