import DocumentApi.Proofs.Filter.Entries

/-!
One filter checked under the three policies. Without an offence all of them give the same result;
with one the strictest fails, and what is left by removing has fewer fields than what is left by
keeping. `Verdict` says so of any part of the check, and follows the check through a filter. Main
statement: `policies_agree`.
-/

set_option autoImplicit false

namespace DocumentApi

namespace Value

mutual

/-- No object in a value has a name twice. -/
def NamesDistinct : Value → Prop
  | object fields => Record.Distinct fields ∧ FieldsDistinct fields
  | list items => ItemsDistinct items
  | _ => True

def ItemsDistinct : List Value → Prop
  | [] => True
  | item :: rest => item.NamesDistinct ∧ ItemsDistinct rest

def FieldsDistinct : List (String × Value) → Prop
  | [] => True
  | (_, value) :: rest => value.NamesDistinct ∧ FieldsDistinct rest

end

mutual

/-- How many fields the objects in a value have together. -/
def fieldCount : Value → Nat
  | object fields => fieldCountOf fields
  | list items => itemsFieldCount items
  | _ => 0

def itemsFieldCount : List Value → Nat
  | [] => 0
  | item :: rest => item.fieldCount + itemsFieldCount rest

def fieldCountOf : List (String × Value) → Nat
  | [] => 0
  | (_, value) :: rest => 1 + value.fieldCount + fieldCountOf rest

end

theorem fieldCountOf_append (fields others : List (String × Value)) :
    fieldCountOf (fields ++ others) = fieldCountOf fields + fieldCountOf others := by
  induction fields with
  | nil => simp [fieldCountOf]
  | cons field rest ih =>
    obtain ⟨name, value⟩ := field
    simp only [List.cons_append, fieldCountOf, ih]
    omega

end Value

/-- What a check comes to under each policy. -/
inductive Verdict {α : Type} (size : α → Nat) (answer : RefusalPolicy → Answer α) : Prop where
  | clean (a : α) (h : ∀ policy, answer policy = .ok a) : Verdict size answer
  | offence (failure : Failure) (left kept : α) (hstop : answer .stop = .error failure)
      (hremove : answer .remove = .ok left) (hkeep : answer .keep = .ok kept)
      (hlt : size left < size kept) : Verdict size answer

namespace Verdict

variable {α β γ : Type} {size : α → Nat}

theorem refuse (p : Problem) (kept : α) {size : Option α → Nat} (h : size none < size (some kept)) :
    Verdict size fun policy => policy.refuse p kept :=
  .offence (.problem p) none (some kept) rfl rfl rfl h

theorem exists_kept {answer : RefusalPolicy → Answer α} (h : Verdict size answer) :
    ∃ a, answer .keep = .ok a := by
  cases h with
  | clean a h => exact ⟨a, h .keep⟩
  | offence _ _ kept _ _ hkeep _ => exact ⟨kept, hkeep⟩

theorem map {answer : RefusalPolicy → Answer α} {size' : β → Nat} (f : α → β)
    (h : Verdict size answer) (hsize : ∀ a b, size a < size b → size' (f a) < size' (f b)) :
    Verdict size' fun policy => f <$> answer policy := by
  cases h with
  | clean a h => exact .clean (f a) fun policy => Answer.map_eq_ok.mpr ⟨a, h policy, rfl⟩
  | offence failure left kept hstop hremove hkeep hlt =>
    exact .offence failure (f left) (f kept) (Answer.map_eq_error.mpr hstop)
      (Answer.map_eq_ok.mpr ⟨left, hremove, rfl⟩) (Answer.map_eq_ok.mpr ⟨kept, hkeep, rfl⟩)
      (hsize left kept hlt)

/-- An offence in either of two parts is one of the whole. -/
theorem both {first : RefusalPolicy → Answer α} {second : RefusalPolicy → Answer β}
    {size' : β → Nat} {total : γ → Nat} (f : α → β → γ) (h : Verdict size first)
    (h' : Verdict size' second) (hsize : ∀ a b, total (f a b) = size a + size' b) :
    Verdict total fun policy => do return f (← first policy) (← second policy) := by
  cases h with
  | clean a h =>
    cases h' with
    | clean b h' => exact .clean (f a b) fun policy => by rw [h, h']; rfl
    | offence failure left kept hstop hremove hkeep hlt =>
      refine .offence failure (f a left) (f a kept) (by rw [h, hstop]; rfl)
        (by rw [h, hremove]; rfl) (by rw [h, hkeep]; rfl) ?_
      rw [hsize, hsize]
      omega
  | offence failure left kept hstop hremove hkeep hlt =>
    have hfails : ∀ rest : Answer β, (do return f (← first .stop) (← rest)) = .error failure := by
      intro rest
      rw [hstop]
      rfl
    cases h' with
    | clean b h' =>
      refine .offence failure (f left b) (f kept b) (hfails _) (by rw [hremove, h']; rfl)
        (by rw [hkeep, h']; rfl) ?_
      rw [hsize, hsize]
      omega
    | offence _ left' kept' _ hremove' hkeep' hlt' =>
      refine .offence failure (f left left') (f kept kept') (hfails _)
        (by rw [hremove, hremove']; rfl) (by rw [hkeep, hkeep']; rfl) ?_
      rw [hsize, hsize]
      omega

end Verdict

namespace Validator

open Value

variable (v : Validator)

theorem verdict_checkConditions (conditions : List (String × Value)) :
    Verdict fieldCountOf fun policy => (v.under policy).checkConditions conditions := by
  induction conditions with
  | nil => exact .clean [] fun _ => rfl
  | cons condition rest ih =>
    obtain ⟨key, value⟩ := condition
    have hfirst : Verdict (fun kept : Option Value => fieldCountOf (kept.map (key, ·)).toList)
        fun policy => (v.under policy).checkCondition key value := by
      cases v.conditionCheck key value with
      | sound kept _ hstays => exact .clean (some kept) hstays
      | refused p hrefused =>
        simp only [hrefused]
        refine .refuse p value ?_
        simp only [Option.map_none, Option.map_some, Option.toList_none, Option.toList_some,
          fieldCountOf]
        omega
    simp only [checkConditions_cons]
    exact hfirst.both _ ih fun _ _ => fieldCountOf_append _ _

/-- Fields of distinct names stay apart, so the record of them has all that is left of each. -/
theorem verdict_visitFields (hescape : v.escape = false) {fields : List (String × Value)}
    (hdistinct : Record.Distinct fields)
    (h : Verdict fieldCountOf fun policy => (v.under policy).visitEach fields) :
    Verdict fieldCountOf fun policy => (v.under policy).visitFields fields [] := by
  have hrecord : ∀ policy, (v.under policy).visitFields fields [] = (v.under policy).visitEach fields :=
    fun policy => visitFields_eq_visitEach
      (fun field _ => not_escapes_of_escape (v := v.under policy) hescape field.1) hdistinct
  simpa only [hrecord] using h

/-- An entry that stays under any policy: what becomes of it is what becomes of its value. -/
theorem verdict_kept (kept : Kept) {key : String} {value : Value}
    (hstays : ∀ policy, (v.under policy).checkKey key = .ok (some kept))
    (h : ∀ key, Verdict fieldCount fun policy => (v.under policy).visit key value) :
    Verdict (fun entry : Option (String × Value) => fieldCountOf entry.toList)
      fun policy => (v.under policy).visitEntry key value := by
  have hvalue : Verdict fieldCount fun policy => (v.under policy).visitKept kept value := by
    obtain ⟨found, visited⟩ := kept
    cases visited with
    | true => exact h found
    | false => exact .clean value fun _ => rfl
  simp only [visitEntry, hstays, Answer.ok_bind]
  refine hvalue.map _ fun a b hlt => ?_
  simp only [Option.toList_some, fieldCountOf]
  omega

theorem verdict_visitEntry (key : String) {value : Value}
    (h : ∀ key, Verdict fieldCount fun policy => (v.under policy).visit key value) :
    Verdict (fun entry : Option (String × Value) => fieldCountOf entry.toList)
      fun policy => (v.under policy).visitEntry key value := by
  cases v.keyCheck key with
  | logical op _ _ hstays => exact v.verdict_kept _ hstays h
  | escaped op _ _ _ hstays => exact v.verdict_kept _ hstays h
  | field _ _ hstays => exact v.verdict_kept _ hstays h
  | refused p hrefused =>
    -- What is refused is looked into all the same if it stays.
    obtain ⟨kept, hkept⟩ := (h key).exists_kept
    have hkept : (v.under .keep).visitKept ⟨key, true⟩ value = .ok kept := hkept
    simp only [visitEntry, hrefused]
    refine .offence (.problem p) none (some (key, kept)) rfl rfl ?_ ?_
    · exact Answer.map_eq_ok.mpr ⟨kept, hkept, rfl⟩
    · simp only [Option.toList_none, Option.toList_some, fieldCountOf]
      omega

mutual

theorem verdict_visit (v : Validator) :
    ∀ (value : Value), value.NamesDistinct → ∀ key,
      Verdict fieldCount fun policy => (v.under policy).visit key value
  | .object conditions, _, key =>
    (v.verdict_checkConditions conditions).map Value.object fun _ _ => id
  | .list items, h, key => by
    cases hkey : Operator.isLogicalToken key with
    | true =>
      simp only [visit, hkey, if_true]
      exact (verdict_visitBranches v items h).map Value.list fun _ _ => id
    | false =>
      simp only [visit, hkey, Bool.false_eq_true, if_false]
      exact .clean (.list items) fun _ => rfl
  | .null, _, _ | .bool _, _, _ | .int _, _, _ | .float _, _, _ | .string _, _, _
  | .objectId _, _, _ | .regex _, _, _ => .clean _ fun _ => rfl
termination_by structural value => value

theorem verdict_visitBranches (v : Validator) :
    ∀ (items : List Value), ItemsDistinct items →
      Verdict itemsFieldCount fun policy => (v.under policy).visitBranches items
  | [], _ => .clean [] fun _ => rfl
  | item :: rest, h => (verdict_visitBranch v item h.1).both (· :: ·)
    (verdict_visitBranches v rest h.2) fun _ _ => rfl
termination_by structural items => items

theorem verdict_visitBranch (v : Validator) :
    ∀ (item : Value), item.NamesDistinct →
      Verdict fieldCount fun policy => (v.under policy).visitBranch item
  | .object fields, h => by
    simp only [visitBranch_object]
    exact (v.branch.verdict_visitFields rfl h.1 (verdict_visitEach v.branch fields h.2)).map
      Value.object fun _ _ => id
  | .list _, _ | .null, _ | .bool _, _ | .int _, _ | .float _, _ | .string _, _ | .objectId _, _
  | .regex _, _ => .clean _ fun _ => rfl
termination_by structural item => item

theorem verdict_visitEach (v : Validator) :
    ∀ (fields : List (String × Value)), FieldsDistinct fields →
      Verdict fieldCountOf fun policy => (v.under policy).visitEach fields
  | [], _ => .clean [] fun _ => rfl
  | (key, value) :: rest, h =>
    (v.verdict_visitEntry key (verdict_visit v value h.1)).both (fun entry others =>
      entry.toList ++ others) (verdict_visitEach v rest h.2) fun _ _ => fieldCountOf_append _ _
termination_by structural fields => fields

end

/-- A filter without an offence is checked alike under all policies. One with an offence is refused
under the strictest, and unless operators are escaped the other two give different results: if it
is an object, fewer fields are left in it where offences are removed. -/
theorem policies_agree {tree : Value} (h : tree.NamesDistinct) :
    (∀ result, (v.under .stop).validate tree = .ok result →
      ∀ policy, (v.under policy).validate tree = .ok result) ∧
    (v.escape = false → ∀ failure, (v.under .stop).validate tree = .error failure →
      ∃ left kept, (v.under .remove).validate tree = .ok left ∧
        (v.under .keep).validate tree = .ok kept ∧ left ≠ kept ∧
        (tree.object? ≠ none → left.fieldCount < kept.fieldCount)) := by
  cases tree with
  | null =>
    refine ⟨fun result hr policy => hr, fun _ failure hf => ?_⟩
    cases hf
  | object fields =>
    have hverdict := verdict_visitEach v fields h.2
    constructor
    · intro result hr policy
      obtain ⟨checked, hvisit, rfl⟩ := Answer.map_eq_ok.mp hr
      refine Answer.map_eq_ok.mpr ⟨checked, ?_, rfl⟩
      rw [visitFields_eq] at hvisit ⊢
      cases hverdict with
      | clean kept hsame => rwa [hsame] at hvisit ⊢
      | offence _ _ _ hstop =>
        rw [hstop] at hvisit
        cases hvisit
    · intro hescape failure hf
      have hfails := Answer.map_eq_error.mp hf
      cases v.verdict_visitFields hescape h.1 hverdict with
      | clean kept hsame => cases hfails.symm.trans (hsame .stop)
      | offence _ left kept _ hremove hkeep hlt =>
        refine ⟨.object left, .object kept, Answer.map_eq_ok.mpr ⟨left, hremove, rfl⟩,
          Answer.map_eq_ok.mpr ⟨kept, hkeep, rfl⟩, ?_, fun _ => hlt⟩
        intro heq
        rw [Value.object.inj heq] at hlt
        exact Nat.lt_irrefl _ hlt
  | _ =>
    refine ⟨fun result hr => ?_, fun _ failure _ => ?_⟩
    · cases hr
    · exact ⟨_, _, rfl, rfl, by simp, fun hobject => absurd rfl hobject⟩

/-- An offence in a branch, behind conditions without one. -/
def branching : Value :=
  .object [("name", .object [("$in", .string "Tom")]),
    ("$or", .list [.object [("age", .object [("$eq", .int 3)])],
      .object [("age", .object [("$gt", .int 3)])]])]

theorem policies_agree_branching :
    let v : Validator :=
      ⟨[.value .equals, .list .isIn, .logical .or], some ["age", "name"], .stop, false⟩
    let allowed : Value := .object [("name", .object [("$in", .list [.string "Tom"])])]
    branching.NamesDistinct ∧ allowed.NamesDistinct ∧
    (∀ policy, (v.under policy).validate allowed = .ok allowed) ∧
    (v.under .stop).validate branching =
      .error (.problem (Problem.operatorRefused "$gt" false)) ∧
    ∃ left kept, (v.under .remove).validate branching = .ok left ∧
      (v.under .keep).validate branching = .ok kept ∧ left ≠ kept ∧
      (branching.object? ≠ none → left.fieldCount < kept.fieldCount) := by
  intro v allowed
  have hbranching : branching.NamesDistinct := by
    simp [branching, NamesDistinct, FieldsDistinct, ItemsDistinct, Record.Distinct, Record.names]
  have hallowed : allowed.NamesDistinct := by
    simp [allowed, NamesDistinct, FieldsDistinct, ItemsDistinct, Record.Distinct, Record.names]
  exact ⟨hbranching, hallowed, (v.policies_agree hallowed).1 allowed rfl, rfl,
    (v.policies_agree hbranching).2 rfl _ rfl⟩

/-- An operator that is escaped may take the place of a field with an offence. -/
example :
    let v : Validator := ⟨[], none, .stop, true⟩
    let tree : Value := .object [("\\$or", .object [("$gt", .int 3)]), ("$or", .null)]
    (v.under .stop).validate tree = .error (.problem (Problem.operatorRefused "$gt" false)) ∧
    (v.under .remove).validate tree = (v.under .keep).validate tree := ⟨rfl, rfl⟩

end Validator

end DocumentApi
