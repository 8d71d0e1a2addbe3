import DocumentApi.Filter.Validator

/-!
What a filter that was checked is made of, unless refused entries stay in it. Its fields are allowed,
and their conditions are allowed operators with values of the kind that they take; its logical
operators are allowed, and combine filters of such fields; all else are operators that were escaped.
Main statement: `sound_of_validate`.
-/

set_option autoImplicit false

namespace DocumentApi

theorem RefusalPolicy.eq_none_of_refuse {α : Type} {policy : RefusalPolicy} (h : policy ≠ .keep)
    {p : Problem} {kept : α} {result : Option α} (hr : policy.refuse p kept = .ok result) :
    result = none := by
  cases policy with
  | stop => cases hr
  | remove => cases hr; rfl
  | keep => exact absurd rfl h

namespace Validator

variable {v : Validator}

/-- An allowed operator of one value over a primitive, or an allowed operator of lists over a list. -/
inductive SoundCondition (v : Validator) : String × Value → Prop where
  | value {op : ValueOperator} {operand : Value} (hop : .value op ∈ v.operators)
      (hvalue : operand.isPrimitive) : SoundCondition v ((Operator.value op).token, operand)
  | list {op : ListOperator} {items : List Value} (hop : .list op ∈ v.operators) :
    SoundCondition v ((Operator.list op).token, .list items)

/-- The conditions that a value stands for, which only an object does. -/
def SoundConditions (v : Validator) (value : Value) : Prop :=
  ∀ conditions, value = .object conditions → ∀ c ∈ conditions, v.SoundCondition c

structure SoundField (v : Validator) (field : String × Value) : Prop where
  plain : Operator.isLogicalToken field.1 = false
  named : v.allowsField field.1
  conditions : v.SoundConditions field.2

/-- The filters that a value combines, which only a list does. -/
def SoundBranches (v : Validator) (value : Value) : Prop :=
  ∀ items, value = .list items → ∀ fields, .object fields ∈ items → ∀ f ∈ fields, v.SoundField f

/-- An entry of a checked filter: a field, an allowed logical operator, or a refused one that was
escaped, with the value that it was given. -/
inductive SoundEntry (v : Validator) (given : Record Value) : String × Value → Prop where
  | field {entry : String × Value} (h : v.SoundField entry) : SoundEntry v given entry
  | logical {op : LogicalOperator} {value : Value} (hop : .logical op ∈ v.operators)
      (hconditions : v.SoundConditions value) (hbranches : v.SoundBranches value) :
    SoundEntry v given ((Operator.logical op).token, value)
  | escaped {op : LogicalOperator} {value : Value} (hescape : v.escape)
      (hop : .logical op ∉ v.operators) (hgiven : ((Operator.logical op).token, value) ∈ given) :
    SoundEntry v given ("\\" ++ (Operator.logical op).token, value)

theorem SoundCondition.of_branch {c : String × Value} (h : v.branch.SoundCondition c) :
    v.SoundCondition c := by
  cases h with
  | value hop hvalue => exact .value (List.mem_filter.mp hop).1 hvalue
  | list hop => exact .list (List.mem_filter.mp hop).1

theorem SoundField.of_branch {field : String × Value} (h : v.branch.SoundField field) :
    v.SoundField field :=
  ⟨h.plain, h.named, fun conditions hc c hmem => (h.conditions conditions hc c hmem).of_branch⟩

/-- A branch has fields only: it may use no logical operator, and none is escaped in it. -/
theorem SoundEntry.field_of_branch {given : Record Value} {entry : String × Value}
    (h : v.branch.SoundEntry given entry) : v.SoundField entry := by
  cases h with
  | field h => exact h.of_branch
  | logical hop => simp [branch, Operator.isLogical] at hop
  | escaped hescape => simp [branch] at hescape

/-! What the check of one key or condition comes to, under any policy. -/

/-- The check with another policy. -/
def under (v : Validator) (policy : RefusalPolicy) : Validator := { v with policy }

inductive KeyCheck (v : Validator) (key : String) : Prop where
  | logical (op : LogicalOperator) (hop : .logical op ∈ v.operators)
      (hkey : key = (Operator.logical op).token)
      (h : ∀ policy, (v.under policy).checkKey key = .ok (some ⟨key, true⟩)) : KeyCheck v key
  | escaped (op : LogicalOperator) (hescape : v.escape) (hop : .logical op ∉ v.operators)
      (hkey : key = (Operator.logical op).token)
      (h : ∀ policy, (v.under policy).checkKey key = .ok (some ⟨"\\" ++ key, false⟩)) :
    KeyCheck v key
  | field (hplain : Operator.isLogicalToken key = false) (hallowed : v.allowsField key)
      (h : ∀ policy, (v.under policy).checkKey key = .ok (some ⟨key, true⟩)) : KeyCheck v key
  | refused (p : Problem)
      (h : ∀ policy, (v.under policy).checkKey key = policy.refuse p ⟨key, true⟩) : KeyCheck v key

theorem isLogicalToken_escaped (op : LogicalOperator) :
    Operator.isLogicalToken ("\\" ++ (Operator.logical op).token) = false := by
  cases op <;> decide

theorem checkKey_of_plain {key : String} (h : Operator.isLogicalToken key = false) :
    v.checkKey key =
      if v.allowsField key then .ok (some ⟨key, true⟩)
      else v.policy.refuse (Problem.fieldRefused key) ⟨key, true⟩ := by
  unfold checkKey
  split
  · rename_i op hop
    have hlogical := Operator.isLogicalToken_iff.mpr ⟨op, hop⟩
    cases h.symm.trans hlogical
  · rfl

theorem keyCheck (v : Validator) (key : String) : KeyCheck v key := by
  cases hplain : Operator.isLogicalToken key with
  | true =>
    obtain ⟨op, hop⟩ := Operator.isLogicalToken_iff.mp hplain
    have hkey := (Operator.token_of_ofToken? hop).symm
    by_cases hmem : .logical op ∈ v.operators
    · exact .logical op hmem hkey fun policy => by simp [checkKey, under, hop, hmem]
    · by_cases hescape : v.escape
      · exact .escaped op hescape hmem hkey fun policy => by
          simp [checkKey, under, hop, hmem, hescape]
      · exact .refused (Problem.operatorRefused key true) fun policy => by
          simp [checkKey, under, hop, hmem, hescape]
  | false =>
    by_cases hallowed : v.allowsField key
    · exact .field hplain hallowed fun policy =>
        (checkKey_of_plain hplain).trans (if_pos hallowed)
    · exact .refused (Problem.fieldRefused key) fun policy =>
        (checkKey_of_plain hplain).trans (if_neg hallowed)

inductive ConditionCheck (v : Validator) (key : String) (value : Value) : Prop where
  | sound (kept : Value) (hsound : v.SoundCondition (key, kept))
      (h : ∀ policy, (v.under policy).checkCondition key value = .ok (some kept)) :
    ConditionCheck v key value
  | refused (p : Problem)
      (h : ∀ policy, (v.under policy).checkCondition key value = policy.refuse p value) :
    ConditionCheck v key value

theorem conditionCheck (v : Validator) (key : String) (value : Value) :
    ConditionCheck v key value := by
  cases hop : Operator.ofToken? key with
  | none =>
    exact .refused (Problem.operatorRefused key false) fun policy => by
      simp [checkCondition, hop, under]
  | some op =>
    have hkey := Operator.token_of_ofToken? hop
    by_cases hmem : op ∈ v.operators
    · cases op with
      | logical op =>
        exact .refused (Problem.operatorRefused key false) fun policy => by
          simp [checkCondition, hop, under]
      | value op =>
        by_cases hvalue : value.isPrimitive
        · exact .sound value (hkey ▸ .value hmem hvalue) fun policy => by
            simp [checkCondition, hop, under, hmem, hvalue]
        · exact .refused (Problem.operatorValueRefused key "a primitive" value) fun policy => by
            simp [checkCondition, hop, under, hmem, hvalue]
      | list op =>
        by_cases hvalue : value.isPrimitive
        · exact .sound (.list [value]) (hkey ▸ .list hmem) fun policy => by
            simp [checkCondition, hop, under, hmem, hvalue]
        · by_cases hlist : ∃ items, value = .list items
          · obtain ⟨items, rfl⟩ := hlist
            exact .sound (.list items) (hkey ▸ .list hmem) fun policy => by
              simp [checkCondition, hop, under, hmem, hvalue]
          · refine .refused (Problem.operatorValueRefused key "an array" value) fun policy => ?_
            simp only [checkCondition, hop, under, hmem, hvalue, not_true, if_false, Bool.false_eq_true]
            split
            · exact absurd ⟨_, rfl⟩ hlist
            · rfl
    · exact .refused (Problem.operatorRefused key false) fun policy => by
        cases op <;> simp [checkCondition, hop, under, hmem]

theorem checkCondition_sound (hp : v.policy ≠ .keep) {key : String} {value kept : Value}
    (h : v.checkCondition key value = .ok (some kept)) : v.SoundCondition (key, kept) := by
  cases v.conditionCheck key value with
  | sound other hsound hstays =>
    cases (hstays v.policy).symm.trans h
    exact hsound
  | refused p hrefused => cases RefusalPolicy.eq_none_of_refuse hp ((hrefused v.policy).symm.trans h)

theorem checkConditions_sound (hp : v.policy ≠ .keep) {conditions kept : List (String × Value)}
    (h : v.checkConditions conditions = .ok kept) : ∀ c ∈ kept, v.SoundCondition c := by
  induction conditions generalizing kept with
  | nil => cases h; simp
  | cons condition rest ih =>
    obtain ⟨key, value⟩ := condition
    rw [checkConditions] at h
    obtain ⟨checked, hcheck, h⟩ := Answer.bind_eq_ok.mp h
    cases checked with
    | none => exact ih h
    | some value' =>
      obtain ⟨tail, htail, h⟩ := Answer.bind_eq_ok.mp h
      cases h
      intro c hc
      rcases List.mem_cons.mp hc with rfl | hc
      · exact checkCondition_sound hp hcheck
      · exact ih htail c hc

theorem visitFields_cons {key : String} {value : Value} {rest : List (String × Value)}
    {checked kept : Record Value} (h : v.visitFields ((key, value) :: rest) checked = .ok kept) :
    (v.checkKey key = .ok none ∧ v.visitFields rest checked = .ok kept) ∨
    ∃ found value', v.checkKey key = .ok (some found) ∧
      (if found.visited then v.visit found.key value else .ok value) = .ok value' ∧
      v.visitFields rest (checked.set found.key value') = .ok kept := by
  rw [visitFields] at h
  obtain ⟨added, hfield, h⟩ := Answer.bind_eq_ok.mp h
  rw [visitField] at hfield
  obtain ⟨answer, hcheck, hfield⟩ := Answer.bind_eq_ok.mp hfield
  cases answer with
  | none =>
    cases hfield
    exact Or.inl ⟨hcheck, h⟩
  | some found =>
    refine Or.inr ⟨found, ?_⟩
    by_cases hv : found.visited
    · simp only [hv, if_true] at hfield ⊢
      obtain ⟨value', hvisit, hfield⟩ := Answer.bind_eq_ok.mp hfield
      cases hfield
      exact ⟨value', hcheck, hvisit, h⟩
    · simp only [hv] at hfield ⊢
      cases hfield
      exact ⟨value, hcheck, rfl, h⟩

mutual

theorem visit_sound {v : Validator} (hp : v.policy ≠ .keep) {key : String} :
    ∀ (value : Value) {kept : Value}, v.visit key value = .ok kept →
      v.SoundConditions kept ∧ (Operator.isLogicalToken key → v.SoundBranches kept)
  | .object conditions, kept, h => by
    rw [visit] at h
    obtain ⟨checked, hcheck, rfl⟩ := Answer.map_eq_ok.mp h
    constructor
    · rintro _ ⟨⟩
      exact checkConditions_sound hp hcheck
    · rintro _ _ ⟨⟩
  | .list items, kept, h => by
    rw [visit] at h
    split at h
    · obtain ⟨checked, hcheck, rfl⟩ := Answer.map_eq_ok.mp h
      constructor
      · rintro _ ⟨⟩
      · rintro _ _ ⟨⟩
        exact visitBranches_sound hp items hcheck
    · rename_i hplain
      cases h
      constructor
      · rintro _ ⟨⟩
      · exact fun hl => absurd hl hplain
  | .null, kept, h | .bool _, kept, h | .int _, kept, h | .float _, kept, h | .string _, kept, h
  | .objectId _, kept, h | .regex _, kept, h => by
    cases h
    constructor
    · rintro _ ⟨⟩
    · rintro _ _ ⟨⟩
termination_by structural value => value

theorem visitBranches_sound {v : Validator} (hp : v.policy ≠ .keep) :
    ∀ (items : List Value) {kept : List Value}, v.visitBranches items = .ok kept →
      ∀ fields, .object fields ∈ kept → ∀ field ∈ fields, v.SoundField field
  | [], kept, h => by
    cases h
    simp
  | item :: rest, kept, h => by
    rw [visitBranches] at h
    obtain ⟨first, hfirst, h⟩ := Answer.bind_eq_ok.mp h
    obtain ⟨others, hothers, h⟩ := Answer.bind_eq_ok.mp h
    cases h
    intro fields hmem
    rcases List.mem_cons.mp hmem with rfl | hmem
    · exact visitBranch_sound hp item hfirst fields rfl
    · exact visitBranches_sound hp rest hothers fields hmem
termination_by structural items => items

theorem visitBranch_sound {v : Validator} (hp : v.policy ≠ .keep) :
    ∀ (item : Value) {kept : Value}, v.visitBranch item = .ok kept →
      ∀ fields, kept = .object fields → ∀ field ∈ fields, v.SoundField field
  | .object entries, kept, h => by
    rw [visitBranch_object] at h
    obtain ⟨checked, hcheck, rfl⟩ := Answer.map_eq_ok.mp h
    rintro _ ⟨⟩ field hf
    have hgiven : ∀ field ∈ entries, field ∈ entries := fun _ hf => hf
    have hentry := visitFields_sound (v := v.branch) hp entries hgiven hcheck (by simp) field hf
    exact hentry.field_of_branch
  | .list _, kept, h | .null, kept, h | .bool _, kept, h | .int _, kept, h | .float _, kept, h
  | .string _, kept, h | .objectId _, kept, h | .regex _, kept, h => by
    cases h
    rintro _ ⟨⟩
termination_by structural item => item

theorem visitFields_sound {v : Validator} (hp : v.policy ≠ .keep) {given : Record Value} :
    ∀ (fields : List (String × Value)), (∀ field ∈ fields, field ∈ given) →
      ∀ {checked kept : Record Value}, v.visitFields fields checked = .ok kept →
        (∀ entry ∈ checked, v.SoundEntry given entry) → ∀ entry ∈ kept, v.SoundEntry given entry
  | [], _, checked, kept, h, hc => by
    cases h
    exact hc
  | (key, value) :: rest, hgiven, checked, kept, h, hc => by
    have hrest : ∀ field ∈ rest, field ∈ given := fun f hf => hgiven f (List.mem_cons_of_mem _ hf)
    rcases visitFields_cons h with ⟨-, h⟩ | ⟨found, value', hcheck, hvisit, h⟩
    · exact visitFields_sound hp rest hrest h hc
    · refine visitFields_sound hp rest hrest h fun entry he => ?_
      rcases Record.mem_set he with rfl | he
      · cases v.keyCheck key with
        | logical op hop hkey hstays =>
          cases (hstays v.policy).symm.trans hcheck
          obtain ⟨hconditions, hbranches⟩ := visit_sound hp value hvisit
          subst hkey
          have hlogical := Operator.isLogicalToken_iff.mpr ⟨op, Operator.ofToken?_token _⟩
          exact .logical hop hconditions (hbranches hlogical)
        | escaped op hescape hop hkey hstays =>
          -- The value of an escaped operator is not looked into.
          cases (hstays v.policy).symm.trans hcheck
          cases hvisit
          subst hkey
          exact .escaped hescape hop (hgiven _ List.mem_cons_self)
        | field hplain hallowed hstays =>
          cases (hstays v.policy).symm.trans hcheck
          exact .field ⟨hplain, hallowed, (visit_sound hp value hvisit).1⟩
        | refused p hrefused =>
          cases RefusalPolicy.eq_none_of_refuse hp ((hrefused v.policy).symm.trans hcheck)
      · exact hc entry he
termination_by structural fields => fields

end

/-- Every entry of a filter that passed the check is sound: a field, an allowed logical operator or
an escaped one. -/
theorem sound_of_validate (hp : v.policy ≠ .keep) {tree : Value} {filter : Record Value}
    (h : v.validate tree = .ok (.object filter)) :
    ∀ entry ∈ filter, v.SoundEntry ((tree.object?).getD []) entry := by
  unfold validate at h
  split at h
  · cases h
  · rename_i fields
    obtain ⟨checked, hvisit, heq⟩ := Answer.map_eq_ok.mp h
    cases heq
    exact visitFields_sound hp fields (fun _ => id) hvisit (by simp)
  · split at h
    · cases h
    · cases h
      simp
    · rename_i hkeep
      exact absurd hkeep hp

/-- One logical operator is allowed and the other one escaped. -/
def choosy : Validator :=
  ⟨[.value .equals, .list .isIn, .logical .or], some ["age", "name", "\\$and"], .remove, true⟩

/-- Refused operators and values in conditions, in branches and in a logical operator's object. -/
def unsound : Value :=
  .object [("name", .object [("$eq", .string "Tom"), ("$gt", .int 3), ("$or", .list [])]),
    ("age", .object [("$in", .int 3), ("$eq", .list [])]), ("secret", .int 1),
    ("$or", .list [.object [("age", .object [("$eq", .object []), ("$in", .list [.null])]),
      ("$or", .list [])], .int 1]),
    ("$and", .list [.object [("secret", .int 1)]])]

def sounded : Record Value :=
  [("name", .object [("$eq", .string "Tom")]), ("age", .object [("$in", .list [.int 3])]),
    ("$or", .list [.object [("age", .object [("$in", .list [.null])])], .int 1]),
    ("\\$and", .list [.object [("secret", .int 1)]])]

theorem sound_of_validate_unsound :
    choosy.policy ≠ .keep ∧ choosy.validate unsound = .ok (.object sounded) ∧
    ∀ entry ∈ sounded, choosy.SoundEntry ((unsound.object?).getD []) entry := by
  have hresult : choosy.validate unsound = .ok (.object sounded) := rfl
  exact ⟨by decide, hresult, sound_of_validate (by decide) hresult⟩

end Validator

end DocumentApi
