import DocumentApi.Proofs.Filter.Soundness

/-!
The check of a filter, entry by entry. What becomes of an entry does not depend on the others, and
only the strictest policy refuses a filter as a whole. Main statements: `visitFields_eq_visitEach`,
`visitEntry_eq_some`, `exists_validate`.
-/

set_option autoImplicit false

namespace DocumentApi

namespace RefusalPolicy

variable {α : Type} {policy : RefusalPolicy} {p : Problem} {kept : α}

theorem eq_of_refuse {left : α} (h : policy.refuse p kept = .ok (some left)) : left = kept := by
  cases policy <;> cases h
  rfl

theorem eq_remove_of_refuse (h : policy.refuse p kept = .ok none) : policy = .remove := by
  cases policy <;> cases h
  rfl

theorem exists_refuse (h : policy ≠ .stop) (p : Problem) (kept : α) :
    ∃ result, policy.refuse p kept = .ok result := by
  cases policy with
  | stop => exact absurd rfl h
  | remove => exact ⟨none, rfl⟩
  | keep => exact ⟨some kept, rfl⟩

end RefusalPolicy

namespace Validator

variable (v : Validator)

/-! The conditions of a field. -/

/-- The tokens of allowed operators of lists. -/
def TakesList (key : String) : Prop :=
  ∃ op, .list op ∈ v.operators ∧ (Operator.list op).token = key

/-- A single value where a list is due. -/
def Wraps (c : String × Value) : Prop := v.TakesList c.1 ∧ c.2.isPrimitive

theorem checkConditions_cons (key : String) (value : Value) (rest : List (String × Value)) :
    v.checkConditions ((key, value) :: rest) = do
      return ((← v.checkCondition key value).map (key, ·)).toList ++
        (← v.checkConditions rest) := by
  rw [checkConditions]
  cases v.checkCondition key value with
  | error failure => rfl
  | ok kept =>
    cases kept with
    | none =>
      simp only [Answer.ok_bind]
      cases v.checkConditions rest <;> rfl
    | some kept => rfl

theorem checkConditions_cons_of_kept {v : Validator} {key : String} {value kept : Value}
    (h : v.checkCondition key value = .ok (some kept)) (rest : List (String × Value)) :
    v.checkConditions ((key, value) :: rest) = ((key, kept) :: ·) <$> v.checkConditions rest := by
  rw [checkConditions_cons, h]
  rfl

theorem checkCondition_of_wraps {v : Validator} {key : String} {value : Value}
    (h : v.Wraps (key, value)) : v.checkCondition key value = .ok (some (.list [value])) := by
  obtain ⟨⟨op, hop, rfl⟩, hvalue⟩ := h
  simp only at hvalue
  simp [checkCondition, Operator.ofToken?_token, hop, hvalue]

/-- A condition that is not wrapped either stays as it is or is refused. -/
theorem eq_of_checkCondition {v : Validator} {key : String} {value kept : Value}
    (h : v.checkCondition key value = .ok (some kept)) (hw : ¬ v.Wraps (key, value)) :
    kept = value := by
  unfold checkCondition at h
  split at h
  · rename_i op hop
    split at h
    · exact RefusalPolicy.eq_of_refuse h
    · rename_i hmem
      split at h
      · rename_i hvalue
        exact absurd ⟨⟨op, Decidable.not_not.mp hmem, Operator.token_of_ofToken? hop⟩, hvalue⟩ hw
      · split at h
        · cases h
          rfl
        · exact RefusalPolicy.eq_of_refuse h
  · split at h
    · exact RefusalPolicy.eq_of_refuse h
    · split at h
      · cases h
        rfl
      · exact RefusalPolicy.eq_of_refuse h
  · exact RefusalPolicy.eq_of_refuse h

theorem eq_remove_of_checkCondition {v : Validator} {key : String} {value : Value}
    (h : v.checkCondition key value = .ok none) : v.policy = .remove := by
  cases v.conditionCheck key value with
  | sound kept _ hstays => cases (hstays v.policy).symm.trans h
  | refused p hrefused => exact RefusalPolicy.eq_remove_of_refuse ((hrefused v.policy).symm.trans h)

/-! The entries of a filter. -/

/-- The tokens of operators that are escaped. -/
def Escapes (key : String) : Prop :=
  v.escape ∧ ∃ op, .logical op ∉ v.operators ∧ (Operator.logical op).token = key

theorem not_escapes_of_escape {v : Validator} (h : v.escape = false) (key : String) :
    ¬ v.Escapes key := fun he => by cases h.symm.trans he.1

theorem not_escapes_of_plain {v : Validator} {key : String}
    (h : Operator.isLogicalToken key = false) : ¬ v.Escapes key := by
  rintro ⟨-, op, -, rfl⟩
  cases h.symm.trans (Operator.isLogicalToken_iff.mpr ⟨op, Operator.ofToken?_token _⟩)

theorem not_escapes_escaped {v : Validator} {key : String} (h : v.Escapes key) :
    ¬ v.Escapes ("\\" ++ key) := by
  obtain ⟨-, op, -, rfl⟩ := h
  exact not_escapes_of_plain (isLogicalToken_escaped op)

theorem checkKey_of_escapes {v : Validator} {key : String} (h : v.Escapes key) :
    v.checkKey key = .ok (some ⟨"\\" ++ key, false⟩) := by
  obtain ⟨hescape, op, hop, rfl⟩ := h
  simp [checkKey, Operator.ofToken?_token, hop, hescape]

theorem eq_of_checkKey {v : Validator} {key : String} {kept : Kept} (hkey : ¬ v.Escapes key)
    (h : v.checkKey key = .ok (some kept)) : kept = ⟨key, true⟩ := by
  cases v.keyCheck key with
  | logical op _ _ hstays => cases (hstays v.policy).symm.trans h; rfl
  | escaped op hescape hop hname => exact absurd ⟨hescape, op, hop, hname.symm⟩ hkey
  | field _ _ hstays => cases (hstays v.policy).symm.trans h; rfl
  | refused p hrefused => exact RefusalPolicy.eq_of_refuse ((hrefused v.policy).symm.trans h)

theorem eq_remove_of_checkKey {v : Validator} {key : String} (h : v.checkKey key = .ok none) :
    v.policy = .remove := by
  cases v.keyCheck key with
  | logical op _ _ hstays => cases (hstays v.policy).symm.trans h
  | escaped op _ _ _ hstays => cases (hstays v.policy).symm.trans h
  | field _ _ hstays => cases (hstays v.policy).symm.trans h
  | refused p hrefused => exact RefusalPolicy.eq_remove_of_refuse ((hrefused v.policy).symm.trans h)

def visitKept (kept : Kept) (value : Value) : Answer Value :=
  if kept.visited then v.visit kept.key value else .ok value

/-- What becomes of an entry, if it is not left out. -/
def visitEntry (key : String) (value : Value) : Answer (Option (String × Value)) :=
  v.checkKey key >>= fun
    | none => .ok none
    | some kept => (fun value => some (kept.key, value)) <$> v.visitKept kept value

def visitEach : List (String × Value) → Answer (List (String × Value))
  | [] => .ok []
  | (key, value) :: rest => do return (← v.visitEntry key value).toList ++ (← visitEach rest)

theorem visitField_eq (key : String) (value : Value) (checked : Record Value) :
    v.visitField (key, value) checked =
      (fun entry => checked.merge entry.toList) <$> v.visitEntry key value := by
  rw [visitField, visitEntry]
  cases v.checkKey key with
  | error failure => rfl
  | ok kept =>
    cases kept with
    | none => rfl
    | some kept =>
      obtain ⟨found, visited⟩ := kept
      cases visited with
      | false => rfl
      | true =>
        have hkept : v.visitKept ⟨found, true⟩ value = v.visit found value := rfl
        simp only [Answer.ok_bind, if_true, hkept]
        cases v.visit found value <;> rfl

theorem visitFields_eq (fields : List (String × Value)) (checked : Record Value) :
    v.visitFields fields checked = checked.merge <$> v.visitEach fields := by
  induction fields generalizing checked with
  | nil => rfl
  | cons field rest ih =>
    obtain ⟨key, value⟩ := field
    rw [visitFields, visitEach, visitField_eq]
    cases v.visitEntry key value with
    | error failure => rfl
    | ok entry =>
      have hfirst := ih (checked.merge entry.toList)
      change v.visitFields rest (checked.merge entry.toList) = _
      rw [hfirst]
      cases v.visitEach rest with
      | error failure => rfl
      | ok others => exact congrArg Except.ok (Record.merge_append checked entry.toList others).symm

variable {v}

theorem visitEntry_of_escapes {key : String} (h : v.Escapes key) (value : Value) :
    v.visitEntry key value = .ok (some ("\\" ++ key, value)) := by
  rw [visitEntry, checkKey_of_escapes h]
  rfl

/-- An entry that is not escaped keeps its key, and becomes what its value becomes. -/
theorem visitEntry_eq_some {key : String} {value : Value} {entry : String × Value}
    (hkey : ¬ v.Escapes key) :
    v.visitEntry key value = .ok (some entry) ↔
      v.checkKey key = .ok (some ⟨key, true⟩) ∧
        ∃ left, v.visit key value = .ok left ∧ entry = (key, left) := by
  constructor
  · intro h
    obtain ⟨checked, hcheck, h⟩ := Answer.bind_eq_ok.mp h
    cases checked with
    | none => cases h
    | some kept =>
      obtain ⟨left, hleft, heq⟩ := Answer.map_eq_ok.mp h
      cases eq_of_checkKey hkey hcheck
      exact ⟨hcheck, left, hleft, (Option.some.inj heq).symm⟩
  · rintro ⟨hcheck, left, hleft, rfl⟩
    rw [visitEntry, hcheck]
    exact Answer.map_eq_ok.mpr ⟨left, hleft, rfl⟩

theorem eq_remove_of_visitEntry {key : String} {value : Value}
    (h : v.visitEntry key value = .ok none) : v.policy = .remove := by
  obtain ⟨checked, hcheck, h⟩ := Answer.bind_eq_ok.mp h
  cases checked with
  | none => exact eq_remove_of_checkKey hcheck
  | some kept =>
    obtain ⟨_, -, heq⟩ := Answer.map_eq_ok.mp h
    cases heq

theorem names_visitEach {fields kept : List (String × Value)}
    (hkeys : ∀ field ∈ fields, ¬ v.Escapes field.1) (h : v.visitEach fields = .ok kept) :
    (Record.names kept).Sublist (Record.names fields) := by
  induction fields generalizing kept with
  | nil =>
    cases h
    exact List.Sublist.slnil
  | cons field rest ih =>
    obtain ⟨key, value⟩ := field
    obtain ⟨entry, hentry, h⟩ := Answer.bind_eq_ok.mp h
    obtain ⟨others, hothers, h⟩ := Answer.bind_eq_ok.mp h
    cases h
    have hrest := ih (fun f hf => hkeys f (List.mem_cons_of_mem _ hf)) hothers
    cases entry with
    | none => exact hrest.cons key
    | some entry =>
      obtain ⟨-, left, -, rfl⟩ :=
        (visitEntry_eq_some (hkeys (key, value) List.mem_cons_self)).mp hentry
      exact hrest.cons_cons key

/-- Entries of distinct names stay apart unless an operator is escaped, so a checked filter has all
that is left of each. -/
theorem visitFields_eq_visitEach {fields : List (String × Value)}
    (hkeys : ∀ field ∈ fields, ¬ v.Escapes field.1) (hdistinct : Record.Distinct fields) :
    v.visitFields fields [] = v.visitEach fields := by
  rw [visitFields_eq]
  cases heach : v.visitEach fields with
  | error failure => rfl
  | ok kept =>
    have hnames := names_visitEach hkeys heach
    exact congrArg Except.ok (Record.ofList_of_distinct (hdistinct.sublist hnames))

/-! Only the strictest policy refuses a filter. -/

theorem exists_checkCondition (hp : v.policy ≠ .stop) (key : String) (value : Value) :
    ∃ kept, v.checkCondition key value = .ok kept := by
  cases v.conditionCheck key value with
  | sound kept _ hstays => exact ⟨some kept, hstays v.policy⟩
  | refused p hrefused =>
    obtain ⟨kept, hkept⟩ := RefusalPolicy.exists_refuse hp p value
    exact ⟨kept, (hrefused v.policy).trans hkept⟩

theorem exists_checkConditions (hp : v.policy ≠ .stop) (conditions : List (String × Value)) :
    ∃ kept, v.checkConditions conditions = .ok kept := by
  induction conditions with
  | nil => exact ⟨[], rfl⟩
  | cons condition rest ih =>
    obtain ⟨key, value⟩ := condition
    obtain ⟨first, hfirst⟩ := exists_checkCondition hp key value
    obtain ⟨others, hothers⟩ := ih
    rw [checkConditions_cons, hfirst, hothers]
    exact ⟨_, rfl⟩

theorem exists_checkKey (hp : v.policy ≠ .stop) (key : String) :
    ∃ kept, v.checkKey key = .ok kept := by
  cases v.keyCheck key with
  | logical op _ _ hstays => exact ⟨_, hstays v.policy⟩
  | escaped op _ _ _ hstays => exact ⟨_, hstays v.policy⟩
  | field _ _ hstays => exact ⟨_, hstays v.policy⟩
  | refused p hrefused =>
    obtain ⟨kept, hkept⟩ := RefusalPolicy.exists_refuse hp p (⟨key, true⟩ : Kept)
    exact ⟨kept, (hrefused v.policy).trans hkept⟩

theorem exists_visitEntry (hp : v.policy ≠ .stop) (key : String) {value : Value}
    (h : ∀ key, ∃ left, v.visit key value = .ok left) :
    ∃ entry, v.visitEntry key value = .ok entry := by
  obtain ⟨checked, hcheck⟩ := exists_checkKey hp key
  rw [visitEntry, hcheck]
  cases checked with
  | none => exact ⟨none, rfl⟩
  | some kept =>
    obtain ⟨found, visited⟩ := kept
    cases visited with
    | false => exact ⟨some (found, value), rfl⟩
    | true =>
      obtain ⟨left, hleft⟩ := h found
      exact ⟨some (found, left), Answer.map_eq_ok.mpr ⟨left, hleft, rfl⟩⟩

mutual

theorem exists_visit {v : Validator} (hp : v.policy ≠ .stop) :
    ∀ (value : Value) (key : String), ∃ left, v.visit key value = .ok left
  | .object conditions, key => by
    obtain ⟨kept, hkept⟩ := exists_checkConditions hp conditions
    exact ⟨.object kept, Answer.map_eq_ok.mpr ⟨kept, hkept, rfl⟩⟩
  | .list items, key => by
    obtain ⟨kept, hkept⟩ := exists_visitBranches hp items
    rw [visit]
    split
    · exact ⟨.list kept, Answer.map_eq_ok.mpr ⟨kept, hkept, rfl⟩⟩
    · exact ⟨.list items, rfl⟩
  | .null, _ | .bool _, _ | .int _, _ | .float _, _ | .string _, _ | .objectId _, _
  | .regex _, _ => ⟨_, rfl⟩
termination_by structural value => value

theorem exists_visitBranches {v : Validator} (hp : v.policy ≠ .stop) :
    ∀ items : List Value, ∃ kept, v.visitBranches items = .ok kept
  | [] => ⟨[], rfl⟩
  | item :: rest => by
    obtain ⟨first, hfirst⟩ := exists_visitBranch hp item
    obtain ⟨others, hothers⟩ := exists_visitBranches hp rest
    rw [visitBranches, hfirst, hothers]
    exact ⟨first :: others, rfl⟩
termination_by structural items => items

theorem exists_visitBranch {v : Validator} (hp : v.policy ≠ .stop) :
    ∀ item : Value, ∃ kept, v.visitBranch item = .ok kept
  | .object fields => by
    obtain ⟨each, heach⟩ := exists_visitEach (v := v.branch) hp fields
    rw [visitBranch_object, visitFields_eq, heach]
    exact ⟨_, rfl⟩
  | .list _ | .null | .bool _ | .int _ | .float _ | .string _ | .objectId _ | .regex _ => ⟨_, rfl⟩
termination_by structural item => item

theorem exists_visitEach {v : Validator} (hp : v.policy ≠ .stop) :
    ∀ fields : List (String × Value), ∃ kept, v.visitEach fields = .ok kept
  | [] => ⟨[], rfl⟩
  | (key, value) :: rest => by
    obtain ⟨entry, hentry⟩ := exists_visitEntry hp key (exists_visit hp value)
    obtain ⟨others, hothers⟩ := exists_visitEach hp rest
    rw [visitEach, hentry, hothers]
    exact ⟨entry.toList ++ others, rfl⟩
termination_by structural fields => fields

end

theorem exists_visitFields (hp : v.policy ≠ .stop) (fields : List (String × Value)) :
    ∃ kept, v.visitFields fields [] = .ok kept := by
  obtain ⟨each, heach⟩ := exists_visitEach hp fields
  rw [visitFields_eq, heach]
  exact ⟨_, rfl⟩

theorem exists_validate (hp : v.policy ≠ .stop) (tree : Value) :
    ∃ result, v.validate tree = .ok result := by
  cases tree with
  | null => exact ⟨.null, rfl⟩
  | object fields =>
    obtain ⟨kept, hkept⟩ := exists_visitFields hp fields
    exact ⟨.object kept, Answer.map_eq_ok.mpr ⟨kept, hkept, rfl⟩⟩
  | _ =>
    cases hpolicy : v.policy with
    | stop => exact absurd hpolicy hp
    | remove => exact ⟨.object [], by simp [validate, hpolicy]⟩
    | keep => exact ⟨_, by simp [validate, hpolicy]; rfl⟩

end Validator

end DocumentApi
