import DocumentApi.Proofs.Filter.Entries

/-!
Filters that are checked a second time. Unless an operator was escaped, nothing changes any more:
each entry that a check leaves is left as it is by the next one. The value of an escaped operator is
looked into for the first time by the second check. Main statements: `validate_again`,
`validate_again_iff`.
-/

set_option autoImplicit false

namespace DocumentApi

namespace Validator

variable {v : Validator}

theorem checkCondition_again {key : String} {value kept : Value}
    (h : v.checkCondition key value = .ok (some kept)) :
    v.checkCondition key kept = .ok (some kept) := by
  by_cases hw : v.Wraps (key, value)
  · cases (checkCondition_of_wraps hw).symm.trans h
    obtain ⟨⟨op, hop, rfl⟩, -⟩ := hw
    simp [checkCondition, Operator.ofToken?_token, hop, Value.isPrimitive]
  · cases eq_of_checkCondition h hw
    exact h

theorem checkConditions_again {conditions kept : List (String × Value)}
    (h : v.checkConditions conditions = .ok kept) : v.checkConditions kept = .ok kept := by
  induction conditions generalizing kept with
  | nil =>
    cases h
    rfl
  | cons condition rest ih =>
    obtain ⟨key, value⟩ := condition
    rw [checkConditions_cons] at h
    obtain ⟨first, hfirst, h⟩ := Answer.bind_eq_ok.mp h
    obtain ⟨others, hothers, h⟩ := Answer.bind_eq_ok.mp h
    cases h
    cases first with
    | none => exact ih hothers
    | some left =>
      have hagain := checkConditions_cons_of_kept (checkCondition_again hfirst) others
      exact hagain.trans (Answer.map_eq_ok.mpr ⟨others, ih hothers, rfl⟩)

/-- An entry that a check leaves as it is. -/
def Stays (v : Validator) (entry : String × Value) : Prop :=
  v.visitEntry entry.1 entry.2 = .ok (some entry)

theorem stays_of_visitEntry {key : String} {value : Value} {entry : String × Value}
    (hvalue : ∀ {left}, v.visit key value = .ok left → v.visit key left = .ok left)
    (hkey : ¬ v.Escapes key) (h : v.visitEntry key value = .ok (some entry)) : v.Stays entry := by
  obtain ⟨hcheck, left, hleft, rfl⟩ := (visitEntry_eq_some hkey).mp h
  exact (visitEntry_eq_some hkey).mpr ⟨hcheck, left, hvalue hleft, rfl⟩

theorem visitFields_of_stays {fields : List (String × Value)} (hdistinct : Record.Distinct fields)
    (h : ∀ entry ∈ fields, v.Stays entry) : v.visitFields fields [] = .ok fields := by
  have heach : v.visitEach fields = .ok fields := by
    clear hdistinct
    induction fields with
    | nil => rfl
    | cons entry rest ih =>
      obtain ⟨hfirst, hrest⟩ := List.forall_mem_cons.mp h
      rw [visitEach, show v.visitEntry entry.1 entry.2 = .ok (some entry) from hfirst, ih hrest]
      rfl
  rw [visitFields_eq, heach]
  exact congrArg Except.ok (Record.ofList_of_distinct hdistinct)

/-- What the escape of an operator of a filter leaves. -/
def EscapedFrom (v : Validator) (given : List (String × Value)) (entry : String × Value) : Prop :=
  ∃ field ∈ given, v.Escapes field.1 ∧ entry = ("\\" ++ field.1, field.2)

mutual

theorem visit_again {v : Validator} {key : String} :
    ∀ (value : Value) {kept : Value}, v.visit key value = .ok kept → v.visit key kept = .ok kept
  | .object conditions, kept, h => by
    rw [visit] at h
    obtain ⟨checked, hcheck, rfl⟩ := Answer.map_eq_ok.mp h
    exact Answer.map_eq_ok.mpr ⟨checked, checkConditions_again hcheck, rfl⟩
  | .list items, kept, h => by
    rw [visit] at h
    split at h
    · rename_i hlogical
      obtain ⟨checked, hcheck, rfl⟩ := Answer.map_eq_ok.mp h
      rw [visit, if_pos hlogical]
      exact Answer.map_eq_ok.mpr ⟨checked, visitBranches_again items hcheck, rfl⟩
    · rename_i hplain
      cases h
      rw [visit, if_neg hplain]
  | .null, kept, h | .bool _, kept, h | .int _, kept, h | .float _, kept, h | .string _, kept, h
  | .objectId _, kept, h | .regex _, kept, h => by
    cases h
    rfl
termination_by structural value => value

theorem visitBranches_again {v : Validator} :
    ∀ (items : List Value) {kept : List Value}, v.visitBranches items = .ok kept →
      v.visitBranches kept = .ok kept
  | [], kept, h => by
    cases h
    rfl
  | item :: rest, kept, h => by
    rw [visitBranches] at h
    obtain ⟨first, hfirst, h⟩ := Answer.bind_eq_ok.mp h
    obtain ⟨others, hothers, h⟩ := Answer.bind_eq_ok.mp h
    cases h
    rw [visitBranches, visitBranch_again item hfirst, visitBranches_again rest hothers]
    rfl
termination_by structural items => items

theorem visitBranch_again {v : Validator} :
    ∀ (item : Value) {kept : Value}, v.visitBranch item = .ok kept → v.visitBranch kept = .ok kept
  | .object fields, kept, h => by
    rw [visitBranch_object, visitFields_eq] at h
    obtain ⟨checked, hcheck, rfl⟩ := Answer.map_eq_ok.mp h
    obtain ⟨each, heach, rfl⟩ := Answer.map_eq_ok.mp hcheck
    have hstays : ∀ entry ∈ Record.ofList each, v.branch.Stays entry := by
      intro entry he
      -- No operator is escaped in a branch.
      rcases visitEach_stays fields heach entry (Record.mem_of_mem_ofList he) with
        hstay | ⟨field, -, hescapes, -⟩
      · exact hstay
      · exact absurd hescapes (not_escapes_of_escape rfl field.1)
    rw [visitBranch_object]
    exact Answer.map_eq_ok.mpr
      ⟨_, visitFields_of_stays (Record.distinct_ofList each) hstays, rfl⟩
  | .list _, kept, h | .null, kept, h | .bool _, kept, h | .int _, kept, h | .float _, kept, h
  | .string _, kept, h | .objectId _, kept, h | .regex _, kept, h => by
    cases h
    rfl
termination_by structural item => item

theorem visitEach_stays {v : Validator} :
    ∀ (fields : List (String × Value)) {kept : List (String × Value)},
      v.visitEach fields = .ok kept → ∀ entry ∈ kept, v.Stays entry ∨ v.EscapedFrom fields entry
  | [], kept, h => by
    cases h
    simp
  | (key, value) :: rest, kept, h => by
    obtain ⟨first, hfirst, h⟩ := Answer.bind_eq_ok.mp h
    obtain ⟨others, hothers, h⟩ := Answer.bind_eq_ok.mp h
    cases h
    intro entry he
    rcases List.mem_append.mp he with he | he
    · cases Option.mem_toList.mp he
      by_cases hkey : v.Escapes key
      · cases (visitEntry_of_escapes hkey value).symm.trans hfirst
        exact Or.inr ⟨(key, value), List.mem_cons_self, hkey, rfl⟩
      · exact Or.inl (stays_of_visitEntry (visit_again value) hkey hfirst)
    · refine (visitEach_stays rest hothers entry he).imp_right ?_
      rintro ⟨field, hf, hescapes, heq⟩
      exact ⟨field, List.mem_cons_of_mem _ hf, hescapes, heq⟩
termination_by structural fields => fields

end

theorem visitFields_stays {fields : List (String × Value)} {kept : Record Value}
    (h : v.visitFields fields [] = .ok kept) :
    kept.Distinct ∧ ∀ entry ∈ kept, v.Stays entry ∨ v.EscapedFrom fields entry := by
  rw [visitFields_eq] at h
  obtain ⟨each, heach, rfl⟩ := Answer.map_eq_ok.mp h
  exact ⟨Record.distinct_ofList each, fun entry he =>
    visitEach_stays fields heach entry (Record.mem_of_mem_ofList he)⟩

theorem visitFields_again {fields : List (String × Value)} {kept : Record Value}
    (hkeys : ∀ field ∈ fields, ¬ v.Escapes field.1) (h : v.visitFields fields [] = .ok kept) :
    v.visitFields kept [] = .ok kept := by
  obtain ⟨hdistinct, hstays⟩ := visitFields_stays h
  refine visitFields_of_stays hdistinct fun entry he => (hstays entry he).resolve_right ?_
  rintro ⟨field, hf, hescapes, -⟩
  exact hkeys field hf hescapes

/-- Without escapes a filter that was checked is left as it is by another check. -/
theorem validate_again (hescape : v.escape = false) {tree result : Value}
    (h : v.validate tree = .ok result) : v.validate result = .ok result := by
  cases tree with
  | null =>
    cases h
    rfl
  | object fields =>
    obtain ⟨kept, hkept, rfl⟩ := Answer.map_eq_ok.mp h
    have hagain := visitFields_again (fun f _ => not_escapes_of_escape hescape f.1) hkept
    exact Answer.map_eq_ok.mpr ⟨kept, hagain, rfl⟩
  | _ =>
    cases hp : v.policy with
    | stop => simp [validate, hp] at h
    | remove =>
      simp only [validate, hp, Except.ok.injEq] at h
      subst h
      rfl
    | keep =>
      simp only [validate, hp, Except.ok.injEq] at h
      subst h
      simp [validate, hp]

/-- Values that become lists, in a branch and beside it, and offences of every kind. -/
def offending : Value :=
  .object [("name", .object [("$in", .string "Tom"), ("$gt", .int 3)]), ("secret", .int 1),
    ("$or", .list [.object [("age", .object [("$in", .int 3), ("$eq", .list [])]),
      ("$and", .list [.object [("age", .object [("$in", .null)])]])], .int 1]),
    ("$and", .object [("$in", .bool true)])]

theorem validate_again_offending :
    let v : Validator :=
      ⟨[.value .equals, .list .isIn, .logical .or], some ["age", "name"], .remove, false⟩
    let left : Value :=
      .object [("name", .object [("$in", .list [.string "Tom"])]),
        ("$or", .list [.object [("age", .object [("$in", .list [.int 3])])], .int 1])]
    let kept : Value :=
      .object [("name", .object [("$in", .list [.string "Tom"]), ("$gt", .int 3)]),
        ("secret", .int 1),
        ("$or", .list [.object [("age", .object [("$in", .list [.int 3]), ("$eq", .list [])]),
          ("$and", .list [.object [("age", .object [("$in", .list [.null])])]])], .int 1]),
        ("$and", .object [("$in", .list [.bool true])])]
    v.escape = false ∧ v.validate offending = .ok left ∧ v.validate left = .ok left ∧
    (v.under .keep).validate offending = .ok kept ∧ (v.under .keep).validate kept = .ok kept ∧
    (v.under .stop).validate left = .ok left := by
  intro v left kept
  have hleft : v.validate offending = .ok left := rfl
  have hkept : (v.under .keep).validate offending = .ok kept := rfl
  have hstop : (v.under .stop).validate left = .ok left := rfl
  exact ⟨rfl, hleft, validate_again rfl hleft, hkept, validate_again rfl hkept,
    validate_again rfl hstop⟩

/-! Where offences stay and operators are escaped. -/

theorem checkKey_of_keep (hp : v.policy = .keep) {key : String} (hkey : ¬ v.Escapes key) :
    v.checkKey key = .ok (some ⟨key, true⟩) := by
  obtain ⟨checked, hcheck⟩ := exists_checkKey (v := v) (by simp [hp]) key
  cases checked with
  | none => cases hp.symm.trans (eq_remove_of_checkKey hcheck)
  | some kept =>
    cases eq_of_checkKey hkey hcheck
    exact hcheck

theorem checkCondition_of_keep (hp : v.policy = .keep) {key : String} {value : Value}
    (hw : ¬ v.Wraps (key, value)) : v.checkCondition key value = .ok (some value) := by
  obtain ⟨checked, hcheck⟩ := exists_checkCondition (v := v) (by simp [hp]) key value
  cases checked with
  | none => cases hp.symm.trans (eq_remove_of_checkCondition hcheck)
  | some kept =>
    cases eq_of_checkCondition hcheck hw
    exact hcheck

theorem checkConditions_eq_self_iff (hp : v.policy = .keep) {conditions : List (String × Value)} :
    v.checkConditions conditions = .ok conditions ↔ ∀ c ∈ conditions, ¬ v.Wraps c := by
  induction conditions with
  | nil => simp [checkConditions]
  | cons condition rest ih =>
    obtain ⟨key, value⟩ := condition
    rw [List.forall_mem_cons, ← ih]
    by_cases hw : v.Wraps (key, value)
    · rw [checkConditions_cons_of_kept (checkCondition_of_wraps hw), Answer.map_eq_ok]
      constructor
      · rintro ⟨others, -, heq⟩
        -- The single value would have to be a list already.
        have hlist : Value.list [value] = value := congrArg Prod.snd (List.cons.inj heq).1
        have hvalue := hw.2
        rw [← hlist] at hvalue
        cases hvalue
      · exact fun h => absurd hw h.1
    · rw [checkConditions_cons_of_kept (checkCondition_of_keep hp hw), Answer.map_eq_ok]
      constructor
      · rintro ⟨others, hothers, heq⟩
        cases heq
        exact ⟨hw, hothers⟩
      · exact fun h => ⟨rest, h.2, rfl⟩

/-- A value that stays as it is if it is read as the conditions of a field: no single value in it is
due to become a list. -/
def Settled (v : Validator) (value : Value) : Prop :=
  ∀ conditions, value = .object conditions → ∀ c ∈ conditions, ¬ v.Wraps c

theorem visit_eq_self_iff (hp : v.policy = .keep) {key : String}
    (hplain : Operator.isLogicalToken key = false) {value : Value} :
    v.visit key value = .ok value ↔ v.Settled value := by
  cases value with
  | object conditions =>
    simp only [visit, Answer.map_eq_ok, Value.object.injEq, exists_eq_right,
      checkConditions_eq_self_iff hp, Settled, forall_eq']
  | list items => simp [visit, hplain, Settled]
  | _ => simp [visit, Settled]

theorem stays_escaped_iff (hp : v.policy = .keep) {key : String} (hkey : v.Escapes key)
    {value : Value} : v.Stays ("\\" ++ key, value) ↔ v.Settled value := by
  obtain ⟨-, op, -, rfl⟩ := hkey
  have hplain := isLogicalToken_escaped op
  have hcheck := checkKey_of_keep hp (not_escapes_of_plain hplain)
  rw [Stays, visitEntry_eq_some (not_escapes_of_plain hplain), ← visit_eq_self_iff hp hplain]
  simp [hcheck]

theorem stays_of_visitEach_eq_self (hp : v.policy = .keep) {fields : List (String × Value)}
    (h : v.visitEach fields = .ok fields) : ∀ entry ∈ fields, v.Stays entry := by
  induction fields with
  | nil => simp
  | cons field rest ih =>
    obtain ⟨first, hfirst, h⟩ := Answer.bind_eq_ok.mp h
    obtain ⟨others, hothers, h⟩ := Answer.bind_eq_ok.mp h
    cases first with
    | none => cases hp.symm.trans (eq_remove_of_visitEntry hfirst)
    | some entry =>
      cases h
      exact List.forall_mem_cons.mpr ⟨hfirst, ih hothers⟩

/-- No operator is left to escape in a filter that was checked. -/
theorem not_escapes_of_visitFields {fields : List (String × Value)} {kept : Record Value}
    (h : v.visitFields fields [] = .ok kept) : ∀ entry ∈ kept, ¬ v.Escapes entry.1 := by
  intro entry he hescapes
  rcases (visitFields_stays h).2 entry he with hstays | ⟨field, -, hkey, rfl⟩
  · have heq := (visitEntry_of_escapes hescapes entry.2).symm.trans hstays
    have hname : "\\" ++ entry.1 = entry.1 :=
      congrArg Prod.fst (Option.some.inj (Except.ok.inj heq))
    have hplain := not_escapes_escaped hescapes
    rw [hname] at hplain
    exact hplain hescapes
  · exact not_escapes_escaped hkey hescapes

theorem visitFields_eq_self_iff (hp : v.policy = .keep) {fields : List (String × Value)}
    {kept : Record Value} (h : v.visitFields fields [] = .ok kept) :
    v.visitFields kept [] = .ok kept ↔
      ∀ key, v.Escapes key → ∀ value, ("\\" ++ key, value) ∈ kept → v.Settled value := by
  obtain ⟨hdistinct, hstays⟩ := visitFields_stays h
  constructor
  · intro hagain key hkey value hmem
    rw [visitFields_eq_visitEach (not_escapes_of_visitFields h) hdistinct] at hagain
    exact (stays_escaped_iff hp hkey).mp (stays_of_visitEach_eq_self hp hagain _ hmem)
  · intro hsettled
    refine visitFields_of_stays hdistinct fun entry he => ?_
    rcases hstays entry he with hstay | ⟨field, -, hescapes, rfl⟩
    · exact hstay
    · exact (stays_escaped_iff hp hescapes).mpr (hsettled field.1 hescapes field.2 he)

theorem validate_of_keep (hp : v.policy = .keep) {tree : Value}
    (h : ∀ fields, tree ≠ .object fields) : v.validate tree = .ok tree := by
  cases tree with
  | null => rfl
  | object fields => exact absurd rfl (h fields)
  | _ => simp only [validate, hp]

/-- Where offences stay, the second check of a filter changes nothing but the values of escaped
operators, and these exactly if they have conditions with a single value that is due to become a
list. The third check changes nothing. -/
theorem validate_again_iff (hp : v.policy = .keep) (tree : Value) :
    ∃ result again, v.validate tree = .ok result ∧ v.validate result = .ok again ∧
      v.validate again = .ok again ∧
      (again = result ↔ ∀ filter, result = .object filter → ∀ key, v.Escapes key →
        ∀ value, ("\\" ++ key, value) ∈ filter → v.Settled value) := by
  have hstop : v.policy ≠ .stop := by simp [hp]
  by_cases hobject : ∃ fields, tree = .object fields
  · obtain ⟨fields, rfl⟩ := hobject
    obtain ⟨kept, hkept⟩ := exists_visitFields hstop fields
    obtain ⟨left, hleft⟩ := exists_visitFields hstop kept
    have hsettles := visitFields_eq_self_iff hp hkept
    refine ⟨.object kept, .object left, Answer.map_eq_ok.mpr ⟨kept, hkept, rfl⟩,
      Answer.map_eq_ok.mpr ⟨left, hleft, rfl⟩, Answer.map_eq_ok.mpr ⟨left, ?_, rfl⟩, ?_⟩
    · exact visitFields_again (not_escapes_of_visitFields hkept) hleft
    · simp only [hleft, Except.ok.injEq] at hsettles
      simpa only [Value.object.injEq, forall_eq'] using hsettles
  · have hnone : ∀ fields, tree ≠ .object fields := fun fields h => hobject ⟨fields, h⟩
    have hsame := validate_of_keep hp hnone
    exact ⟨tree, tree, hsame, hsame, hsame, by simp [hnone]⟩

/-- Refused entries stay and every logical operator is escaped. -/
def sparing : Validator := ⟨[.value .equals, .list .isIn], some ["name"], .keep, true⟩

/-- Escaped operators over conditions and over a list of filters, beside a field. -/
def escaping : Value :=
  .object [("name", .object [("$in", .string "Tom")]), ("$or", .object [("$in", .int 1)]),
    ("$and", .list [.object [("age", .object [("$in", .int 1)])]])]

theorem validate_again_iff_escaping :
    let once : Value :=
      .object [("name", .object [("$in", .list [.string "Tom"])]),
        ("\\$or", .object [("$in", .int 1)]),
        ("\\$and", .list [.object [("age", .object [("$in", .int 1)])]])]
    let twice : Value :=
      .object [("name", .object [("$in", .list [.string "Tom"])]),
        ("\\$or", .object [("$in", .list [.int 1])]),
        ("\\$and", .list [.object [("age", .object [("$in", .int 1)])]])]
    sparing.policy = .keep ∧ sparing.validate escaping = .ok once ∧
    sparing.validate once = .ok twice ∧ sparing.validate twice = .ok twice ∧
    (twice = once ↔ ∀ filter, once = .object filter → ∀ key, sparing.Escapes key →
      ∀ value, ("\\" ++ key, value) ∈ filter → sparing.Settled value) := by
  intro once twice
  have honce : sparing.validate escaping = .ok once := rfl
  have htwice : sparing.validate once = .ok twice := rfl
  obtain ⟨result, again, hresult, hagain, hthird, hiff⟩ :=
    validate_again_iff (v := sparing) rfl escaping
  cases honce.symm.trans hresult
  cases htwice.symm.trans hagain
  exact ⟨rfl, honce, htwice, hthird, hiff⟩

/-- Under an escaped operator a single value becomes a list at the second check. -/
theorem validate_again_differs :
    ∃ result again, sparing.policy = .keep ∧ sparing.escape = true ∧
      sparing.validate (.object [("$or", .object [("$in", .int 1)])]) = .ok result ∧
      sparing.validate result = .ok again ∧ again ≠ result :=
  ⟨.object [("\\$or", .object [("$in", .int 1)])],
    .object [("\\$or", .object [("$in", .list [.int 1])])], rfl, rfl, rfl, rfl, by simp⟩

end Validator

end DocumentApi
