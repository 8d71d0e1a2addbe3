import DocumentApi.Proofs.Filter.Policies
import Mathlib.Data.List.Forall2

/-!
What is left of a filter that is checked. Without escapes entries may be left out and single values
may become lists of one; nothing is added, moved, renamed or changed in any other way, and what is
left of an entry does not depend on the entries beside it. Main statement: `remains_of_validate`.
-/

set_option autoImplicit false

namespace DocumentApi

mutual

/-- What may be left of a value, if entries may only be left out where `deletes` holds, and single
values only become lists under the keys in `wraps`. -/
inductive Remains (deletes : Prop) (wraps : String → Prop) : Value → Value → Prop where
  | same (value : Value) : Remains deletes wraps value value
  | list {items kept : List Value} (h : ItemsRemain deletes wraps items kept) :
    Remains deletes wraps (.list items) (.list kept)
  | object {fields kept : List (String × Value)} (h : FieldsRemain deletes wraps fields kept) :
    Remains deletes wraps (.object fields) (.object kept)

inductive ItemsRemain (deletes : Prop) (wraps : String → Prop) :
    List Value → List Value → Prop where
  | nil : ItemsRemain deletes wraps [] []
  | cons {item left : Value} {rest kept : List Value} (h : Remains deletes wraps item left)
      (hrest : ItemsRemain deletes wraps rest kept) :
    ItemsRemain deletes wraps (item :: rest) (left :: kept)

inductive FieldsRemain (deletes : Prop) (wraps : String → Prop) :
    List (String × Value) → List (String × Value) → Prop where
  | nil : FieldsRemain deletes wraps [] []
  | deleted {field : String × Value} {rest kept : List (String × Value)} (hdeletes : deletes)
      (hrest : FieldsRemain deletes wraps rest kept) :
    FieldsRemain deletes wraps (field :: rest) kept
  | kept {key : String} {value left : Value} {rest kept : List (String × Value)}
      (h : Remains deletes wraps value left) (hrest : FieldsRemain deletes wraps rest kept) :
    FieldsRemain deletes wraps ((key, value) :: rest) ((key, left) :: kept)
  | wrapped {key : String} {value : Value} {rest kept : List (String × Value)} (hkey : wraps key)
      (hvalue : value.isPrimitive) (hrest : FieldsRemain deletes wraps rest kept) :
    FieldsRemain deletes wraps ((key, value) :: rest) ((key, .list [value]) :: kept)

end

namespace Validator

open Value

variable {v : Validator}

/-- What the check may leave of a value: only removal leaves out entries, and only under allowed
operators of lists do single values become lists. -/
abbrev Leaves (v : Validator) : Value → Value → Prop := Remains (v.policy = .remove) v.TakesList

abbrev LeavesItems (v : Validator) : List Value → List Value → Prop :=
  ItemsRemain (v.policy = .remove) v.TakesList

abbrev LeavesFields (v : Validator) : List (String × Value) → List (String × Value) → Prop :=
  FieldsRemain (v.policy = .remove) v.TakesList

theorem takesList_branch (v : Validator) : v.branch.TakesList = v.TakesList := by
  funext key
  simp [TakesList, branch, Operator.isLogical]

theorem leavesFields_branch (v : Validator) : v.branch.LeavesFields = v.LeavesFields := by
  have hpolicy : v.branch.policy = v.policy := rfl
  rw [LeavesFields, takesList_branch, hpolicy]

theorem leavesFields_of_checkConditions {conditions kept : List (String × Value)}
    (h : v.checkConditions conditions = .ok kept) : v.LeavesFields conditions kept := by
  induction conditions generalizing kept with
  | nil =>
    cases h
    exact .nil
  | cons condition rest ih =>
    obtain ⟨key, value⟩ := condition
    rw [checkConditions_cons] at h
    obtain ⟨first, hfirst, h⟩ := Answer.bind_eq_ok.mp h
    obtain ⟨others, hothers, h⟩ := Answer.bind_eq_ok.mp h
    cases h
    cases first with
    | none => exact .deleted (eq_remove_of_checkCondition hfirst) (ih hothers)
    | some left =>
      by_cases hw : v.Wraps (key, value)
      · cases (checkCondition_of_wraps hw).symm.trans hfirst
        exact .wrapped hw.1 hw.2 (ih hothers)
      · cases eq_of_checkCondition hfirst hw
        exact .kept (.same value) (ih hothers)

mutual

theorem leaves_of_visit {v : Validator} {key : String} :
    ∀ (value : Value), value.NamesDistinct → ∀ {kept : Value}, v.visit key value = .ok kept →
      v.Leaves value kept
  | .object conditions, _, kept, h => by
    rw [visit] at h
    obtain ⟨checked, hcheck, rfl⟩ := Answer.map_eq_ok.mp h
    exact .object (leavesFields_of_checkConditions hcheck)
  | .list items, hdistinct, kept, h => by
    rw [visit] at h
    split at h
    · obtain ⟨checked, hcheck, rfl⟩ := Answer.map_eq_ok.mp h
      exact .list (leavesItems_of_visitBranches items hdistinct hcheck)
    · cases h
      exact .same _
  | .null, _, kept, h | .bool _, _, kept, h | .int _, _, kept, h | .float _, _, kept, h
  | .string _, _, kept, h | .objectId _, _, kept, h | .regex _, _, kept, h => by
    cases h
    exact .same _
termination_by structural value => value

theorem leavesItems_of_visitBranches {v : Validator} :
    ∀ (items : List Value), ItemsDistinct items → ∀ {kept : List Value},
      v.visitBranches items = .ok kept → v.LeavesItems items kept
  | [], _, kept, h => by
    cases h
    exact .nil
  | item :: rest, hdistinct, kept, h => by
    rw [visitBranches] at h
    obtain ⟨first, hfirst, h⟩ := Answer.bind_eq_ok.mp h
    obtain ⟨others, hothers, h⟩ := Answer.bind_eq_ok.mp h
    cases h
    exact .cons (leaves_of_visitBranch item hdistinct.1 hfirst)
      (leavesItems_of_visitBranches rest hdistinct.2 hothers)
termination_by structural items => items

theorem leaves_of_visitBranch {v : Validator} :
    ∀ (item : Value), item.NamesDistinct → ∀ {kept : Value}, v.visitBranch item = .ok kept →
      v.Leaves item kept
  | .object fields, hdistinct, kept, h => by
    have hkeys : ∀ field ∈ fields, ¬ v.branch.Escapes field.1 :=
      fun field _ => not_escapes_of_escape rfl field.1
    rw [visitBranch_object, visitFields_eq_visitEach hkeys hdistinct.1] at h
    obtain ⟨checked, hcheck, rfl⟩ := Answer.map_eq_ok.mp h
    have hleft := leavesFields_of_visitEach fields hkeys hdistinct.2 hcheck
    rw [leavesFields_branch] at hleft
    exact .object hleft
  | .list _, _, kept, h | .null, _, kept, h | .bool _, _, kept, h | .int _, _, kept, h
  | .float _, _, kept, h | .string _, _, kept, h | .objectId _, _, kept, h
  | .regex _, _, kept, h => by
    cases h
    exact .same _
termination_by structural item => item

theorem leavesFields_of_visitEach {v : Validator} :
    ∀ (fields : List (String × Value)), (∀ field ∈ fields, ¬ v.Escapes field.1) →
      FieldsDistinct fields → ∀ {kept : List (String × Value)}, v.visitEach fields = .ok kept →
      v.LeavesFields fields kept
  | [], _, _, kept, h => by
    cases h
    exact .nil
  | (key, value) :: rest, hkeys, hdistinct, kept, h => by
    obtain ⟨first, hfirst, h⟩ := Answer.bind_eq_ok.mp h
    obtain ⟨others, hothers, h⟩ := Answer.bind_eq_ok.mp h
    cases h
    have hkeys' : ∀ field ∈ rest, ¬ v.Escapes field.1 :=
      fun field hf => hkeys field (List.mem_cons_of_mem _ hf)
    have hrest := leavesFields_of_visitEach rest hkeys' hdistinct.2 hothers
    cases first with
    | none => exact .deleted (eq_remove_of_visitEntry hfirst) hrest
    | some entry =>
      obtain ⟨-, left, hleft, rfl⟩ :=
        (visitEntry_eq_some (hkeys (key, value) List.mem_cons_self)).mp hfirst
      exact .kept (leaves_of_visit value hdistinct.1 hleft) hrest
termination_by structural fields => fields

end

/-- What is left of each entry alone is what is left of it among the others. -/
theorem exists_visitEach_flatten (hp : v.policy ≠ .stop) (fields : List (String × Value)) :
    ∃ kept : List (List (String × Value)),
      List.Forall₂ (fun field left => v.visitEach [field] = .ok left) fields kept ∧
        v.visitEach fields = .ok kept.flatten := by
  induction fields with
  | nil => exact ⟨[], .nil, rfl⟩
  | cons field rest ih =>
    obtain ⟨key, value⟩ := field
    obtain ⟨kept, heach, hrest⟩ := ih
    obtain ⟨entry, hentry⟩ := exists_visitEntry hp key (exists_visit hp value)
    refine ⟨entry.toList :: kept, .cons ?_ heach, ?_⟩
    · simp [visitEach, hentry, Answer.ok_bind, pure, Except.pure]
    · rw [visitEach, hentry, hrest]
      rfl

/-- Without escapes the check leaves out entries and makes lists of single values, and does nothing
else to a filter. Where no filter is refused as a whole, what is left of a filter is what is left of
each of its entries alone, in order. -/
theorem remains_of_validate (hescape : v.escape = false) {fields : Record Value}
    (hdistinct : (Value.object fields).NamesDistinct) :
    (∀ result, v.validate (.object fields) = .ok result →
      Remains (v.policy = .remove) v.TakesList (.object fields) result) ∧
    (v.policy ≠ .stop → ∃ kept : List (Record Value),
      List.Forall₂ (fun field left => v.validate (.object [field]) = .ok (.object left))
        fields kept ∧ v.validate (.object fields) = .ok (.object kept.flatten)) := by
  have hkeys : ∀ field : String × Value, ¬ v.Escapes field.1 :=
    fun field => not_escapes_of_escape hescape field.1
  have hvalidate : ∀ entries : Record Value, entries.Distinct →
      v.validate (.object entries) = .object <$> v.visitEach entries := by
    intro entries hd
    rw [validate, visitFields_eq_visitEach (fun field _ => hkeys field) hd]
  constructor
  · intro result h
    rw [hvalidate fields hdistinct.1] at h
    obtain ⟨kept, hkept, rfl⟩ := Answer.map_eq_ok.mp h
    exact .object (leavesFields_of_visitEach fields (fun field _ => hkeys field) hdistinct.2 hkept)
  · intro hp
    obtain ⟨kept, heach, hwhole⟩ := exists_visitEach_flatten hp fields
    refine ⟨kept, heach.imp fun field left hleft => ?_, ?_⟩
    · rw [hvalidate [field] (by simp [Record.Distinct, Record.names]), hleft]
      rfl
    · rw [hvalidate fields hdistinct.1, hwhole]
      rfl

/-- A single value that becomes a list, an operator and a field that are refused, and a combination
with one branch that keeps nothing. -/
def untrimmed : Record Value :=
  [("name", .object [("$in", .string "Tom"), ("$gt", .int 3)]), ("secret", .int 1),
    ("$or", .list [.object [("secret", .null)], .object [("age", .object [("$eq", .int 3)])]])]

theorem remains_of_validate_untrimmed :
    let v : Validator :=
      ⟨[.value .equals, .list .isIn, .logical .or], some ["age", "name"], .remove, false⟩
    let left : Record Value :=
      [("name", .object [("$in", .list [.string "Tom"])]),
        ("$or", .list [.object [], .object [("age", .object [("$eq", .int 3)])]])]
    let kept : Record Value :=
      [("name", .object [("$in", .list [.string "Tom"]), ("$gt", .int 3)]), ("secret", .int 1),
        ("$or", .list [.object [("secret", .null)], .object [("age", .object [("$eq", .int 3)])]])]
    (Value.object untrimmed).NamesDistinct ∧
    v.validate (.object untrimmed) = .ok (.object left) ∧
    Remains (v.policy = .remove) v.TakesList (.object untrimmed) (.object left) ∧
    (v.under .keep).validate (.object untrimmed) = .ok (.object kept) ∧
    Remains False v.TakesList (.object untrimmed) (.object kept) ∧
    ∃ parts : List (Record Value),
      List.Forall₂ (fun field part => v.validate (.object [field]) = .ok (.object part))
        untrimmed parts ∧ v.validate (.object untrimmed) = .ok (.object parts.flatten) := by
  intro v left kept
  have hdistinct : (Value.object untrimmed).NamesDistinct := by
    simp [untrimmed, NamesDistinct, FieldsDistinct, ItemsDistinct, Record.Distinct, Record.names]
  obtain ⟨hremains, hparts⟩ := remains_of_validate (v := v) rfl hdistinct
  have hkept : Remains ((v.under .keep).policy = .remove) v.TakesList _ _ :=
    (remains_of_validate (v := v.under .keep) rfl hdistinct).1 (.object kept) rfl
  have hnever : ((v.under .keep).policy = .remove) = False := by simp [under]
  rw [hnever] at hkept
  exact ⟨hdistinct, rfl, hremains _ rfl, rfl, hkept, hparts (by decide)⟩

end Validator

end DocumentApi
