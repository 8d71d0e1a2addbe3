import DocumentApi.Proofs.Filter.Confined
import DocumentApi.Proofs.Filter.Recheck
import Mathlib.Data.List.Forall2

/-!
Fields that lose all of their conditions when refused entries are left out. The field itself stays,
with an empty object, and so does its entry of the query, where an empty object is a value to be
equal to. Main statement: `emptied_of_validate`.
-/

set_option autoImplicit false

namespace DocumentApi

namespace StoreQuery

theorem ofList_eq_nil_iff {fields : List (String × Value)} :
    Record.ofList fields = [] ↔ fields = [] := by
  constructor
  · intro h
    cases fields with
    | nil => rfl
    | cons field rest =>
      have hmem : field.1 ∈ Record.names (Record.ofList (field :: rest)) :=
        Record.mem_names_ofList.mpr List.mem_cons_self
      rw [h] at hmem
      cases hmem
  · rintro rfl
    rfl

/-- An empty object in a query comes from an empty object of the filter. -/
theorem ofConditions_eq_empty_iff {value : Value} :
    ofConditions value = .object [] ↔ value = .object [] := by
  cases value with
  | object conditions =>
    have hnil : merged (clausesOf conditions) = [] ↔ conditions = [] := by
      constructor
      · intro h
        by_contra hne
        refine mergeClauses_ne_nil (mergeClauses_ne_nil (mergeClauses_ne_nil ?_)) h
        simpa [clausesOf] using hne
      · rintro rfl
        rfl
    simp only [ofConditions, Value.object.injEq]
    exact ofList_eq_nil_iff.trans hnil
  | _ => simp [ofConditions]

theorem mem_map_empty_iff (rewrite : String → Value → Value) {key : String}
    (h : ∀ value, rewrite key value = .object [] ↔ value = .object []) (fields : Record Value) :
    (key, .object []) ∈ fields.map (fun field => (field.1, rewrite field.1 field.2)) ↔
      (key, .object []) ∈ fields := by
  rw [List.mem_map]
  constructor
  · rintro ⟨⟨name, value⟩, hm, heq⟩
    obtain ⟨rfl, hvalue⟩ := Prod.mk.inj heq
    rwa [← (h value).mp hvalue]
  · exact fun hm => ⟨_, hm, congrArg _ ((h _).mpr rfl)⟩

end StoreQuery

namespace Validator

open StoreQuery

variable {v : Validator}

/-! The conditions of a field. -/

/-- Whether a condition stays where refused ones are left out. -/
def Fits (v : Validator) (c : String × Value) : Prop := v.SoundCondition c ∨ v.Wraps c

theorem checkCondition_of_sound {c : String × Value} (h : v.SoundCondition c) :
    v.checkCondition c.1 c.2 = .ok (some c.2) := by
  cases h with
  | value hop hvalue => simp [checkCondition, Operator.ofToken?_token, hop, hvalue]
  | list hop => simp [checkCondition, Operator.ofToken?_token, hop, Value.isPrimitive]

theorem fits_of_checkCondition (hp : v.policy = .remove) {key : String} {value kept : Value}
    (h : v.checkCondition key value = .ok (some kept)) : v.Fits (key, value) := by
  by_cases hw : v.Wraps (key, value)
  · exact Or.inr hw
  · cases eq_of_checkCondition h hw
    exact Or.inl (checkCondition_sound (by simp [hp]) h)

theorem checkCondition_eq_none_iff (hp : v.policy = .remove) {key : String} {value : Value} :
    v.checkCondition key value = .ok none ↔ ¬ v.Fits (key, value) := by
  constructor
  · rintro h (hsound | hw)
    · cases h.symm.trans (checkCondition_of_sound hsound)
    · cases h.symm.trans (checkCondition_of_wraps hw)
  · intro h
    obtain ⟨checked, hcheck⟩ := exists_checkCondition (v := v) (by simp [hp]) key value
    cases checked with
    | none => exact hcheck
    | some kept => exact absurd (fits_of_checkCondition hp hcheck) h

theorem checkConditions_eq_nil_iff (hp : v.policy = .remove) {conditions : List (String × Value)} :
    v.checkConditions conditions = .ok [] ↔ ∀ c ∈ conditions, ¬ v.Fits c := by
  induction conditions with
  | nil => simp [checkConditions]
  | cons condition rest ih =>
    obtain ⟨key, value⟩ := condition
    rw [List.forall_mem_cons, ← ih, ← checkCondition_eq_none_iff hp, checkConditions_cons]
    constructor
    · intro h
      obtain ⟨first, hfirst, h⟩ := Answer.bind_eq_ok.mp h
      obtain ⟨others, hothers, h⟩ := Answer.bind_eq_ok.mp h
      obtain ⟨hnone, rfl⟩ := List.append_eq_nil_iff.mp (Except.ok.inj h)
      cases first with
      | none => exact ⟨hfirst, hothers⟩
      | some kept => cases hnone
    · rintro ⟨hfirst, hothers⟩
      rw [hfirst, hothers]
      rfl

/-- What a value becomes under the name of a field is an empty object if it was one, or if it is an
object of which no condition stays. -/
theorem visit_eq_empty_iff (hp : v.policy = .remove) {key : String}
    (hplain : Operator.isLogicalToken key = false) (value : Value) :
    v.visit key value = .ok (.object []) ↔
      ∃ conditions, value = .object conditions ∧ ∀ c ∈ conditions, ¬ v.Fits c := by
  cases value with
  | object conditions =>
    simp only [visit, Answer.map_eq_ok, Value.object.injEq, exists_eq_right,
      checkConditions_eq_nil_iff hp, exists_eq_left']
  | list items => simp [visit, hplain]
  | _ => simp [visit]

/-! The entries of a filter. -/

/-- The names under which entries are written that are no logical operators in the result: those of
allowed fields, and those of escaped operators. -/
inductive WrittenAs (v : Validator) : String → String → Prop where
  | field {key : String} (hplain : Operator.isLogicalToken key = false)
      (hallowed : v.allowsField key) : WrittenAs v key key
  | escaped {key : String} (h : v.Escapes key) : WrittenAs v key ("\\" ++ key)

/-- The entry of a filter that a field of the result comes from: the last one that is written under
its name. -/
def Source (v : Validator) (given : Record Value) (key : String) (source : String × Value) : Prop :=
  ∃ before after, given = before ++ source :: after ∧ v.WrittenAs source.1 key ∧
    ∀ later ∈ after, ¬ v.WrittenAs later.1 key

/-- A field that has conditions, none of which stays. -/
def Stripped (v : Validator) (field : String × Value) : Prop :=
  ¬ v.Escapes field.1 ∧ ∃ conditions, field.2 = .object conditions ∧ conditions ≠ [] ∧
    ∀ c ∈ conditions, ¬ v.Fits c

theorem WrittenAs.plain {name key : String} (h : v.WrittenAs name key) :
    Operator.isLogicalToken key = false := by
  cases h with
  | field hplain => exact hplain
  | escaped h =>
    obtain ⟨-, op, -, rfl⟩ := h
    exact isLogicalToken_escaped op

theorem writtenAs_of_visitEntry (hp : v.policy = .remove) {name key : String} {value left : Value}
    (hplain : Operator.isLogicalToken key = false)
    (h : v.visitEntry name value = .ok (some (key, left))) : v.WrittenAs name key := by
  by_cases hescapes : v.Escapes name
  · cases (visitEntry_of_escapes hescapes value).symm.trans h
    exact .escaped hescapes
  · obtain ⟨hcheck, _, -, heq⟩ := (visitEntry_eq_some hescapes).mp h
    cases heq
    refine .field hplain ?_
    rw [checkKey_of_plain hplain, hp] at hcheck
    by_contra hallowed
    simp [hallowed, RefusalPolicy.refuse] at hcheck

/-- What is written of an entry under the name of a field, and when it is an empty object. -/
theorem visitEntry_of_writtenAs (hp : v.policy = .remove) {source : String × Value} {key : String}
    (h : v.WrittenAs source.1 key) :
    ∃ left, v.visitEntry source.1 source.2 = .ok (some (key, left)) ∧
      (left = .object [] ↔ source.2 = .object [] ∨ v.Stripped source) := by
  obtain ⟨name, value⟩ := source
  cases h with
  | escaped h =>
    exact ⟨value, visitEntry_of_escapes h value, by simp [Stripped, h]⟩
  | field hplain hallowed =>
    have hescapes : ¬ v.Escapes name := not_escapes_of_plain hplain
    obtain ⟨left, hleft⟩ := exists_visit (v := v) (by simp [hp]) value name
    have hcheck : v.checkKey name = .ok (some ⟨name, true⟩) := by
      rw [checkKey_of_plain hplain, if_pos hallowed]
    refine ⟨left, (visitEntry_eq_some hescapes).mpr ⟨hcheck, left, hleft, rfl⟩, ?_⟩
    have hempty := visit_eq_empty_iff hp hplain value
    rw [hleft, Except.ok.injEq] at hempty
    rw [hempty]
    constructor
    · rintro ⟨conditions, rfl, hrefused⟩
      by_cases hnil : conditions = []
      · exact Or.inl (congrArg Value.object hnil)
      · exact Or.inr ⟨hescapes, conditions, rfl, hnil, hrefused⟩
    · rintro (rfl | ⟨-, conditions, rfl, -, hrefused⟩)
      · exact ⟨[], rfl, by simp⟩
      · exact ⟨conditions, rfl, hrefused⟩

theorem visitEach_append {fields others each : List (String × Value)}
    (h : v.visitEach (fields ++ others) = .ok each) :
    ∃ first second, v.visitEach fields = .ok first ∧ v.visitEach others = .ok second ∧
      each = first ++ second := by
  induction fields generalizing each with
  | nil => exact ⟨[], each, rfl, h, rfl⟩
  | cons field rest ih =>
    obtain ⟨key, value⟩ := field
    obtain ⟨entry, hentry, h⟩ := Answer.bind_eq_ok.mp h
    obtain ⟨left, hleft, h⟩ := Answer.bind_eq_ok.mp h
    cases h
    obtain ⟨first, second, hfirst, hsecond, rfl⟩ := ih hleft
    refine ⟨entry.toList ++ first, second, ?_, hsecond, by simp⟩
    rw [visitEach, hentry, hfirst]
    rfl

theorem mem_visitEach {fields each : List (String × Value)} (h : v.visitEach fields = .ok each)
    {entry : String × Value} (he : entry ∈ each) :
    ∃ field ∈ fields, v.visitEntry field.1 field.2 = .ok (some entry) := by
  induction fields generalizing each with
  | nil =>
    cases h
    cases he
  | cons field rest ih =>
    obtain ⟨key, value⟩ := field
    obtain ⟨first, hfirst, h⟩ := Answer.bind_eq_ok.mp h
    obtain ⟨others, hothers, h⟩ := Answer.bind_eq_ok.mp h
    cases h
    rcases List.mem_append.mp he with he | he
    · cases Option.mem_toList.mp he
      exact ⟨(key, value), List.mem_cons_self, hfirst⟩
    · obtain ⟨field, hf, hentry⟩ := ih hothers he
      exact ⟨field, List.mem_cons_of_mem _ hf, hentry⟩

theorem exists_source {given : Record Value} {key : String}
    (h : ∃ field ∈ given, v.WrittenAs field.1 key) : ∃ source, v.Source given key source := by
  induction given with
  | nil => simp at h
  | cons field rest ih =>
    by_cases hrest : ∃ field ∈ rest, v.WrittenAs field.1 key
    · obtain ⟨source, before, after, rfl, hsource⟩ := ih hrest
      exact ⟨source, field :: before, after, rfl, hsource⟩
    · obtain ⟨found, hf, hwritten⟩ := h
      rcases List.mem_cons.mp hf with rfl | hf
      · exact ⟨found, [], rest, rfl, hwritten, fun later hl hw => hrest ⟨later, hl, hw⟩⟩
      · exact absurd ⟨found, hf, hwritten⟩ hrest

/-- What is read back of a checked filter under the name of a field is what its source became. -/
theorem get?_of_source (hp : v.policy = .remove) {given kept : Record Value} {key : String}
    {source : String × Value} (hsource : v.Source given key source)
    (h : v.visitFields given [] = .ok kept) :
    ∃ left, kept.get? key = some left ∧
      (left = .object [] ↔ source.2 = .object [] ∨ v.Stripped source) := by
  obtain ⟨before, after, rfl, hwritten, hlast⟩ := hsource
  obtain ⟨left, hentry, hempty⟩ := visitEntry_of_writtenAs hp hwritten
  rw [visitFields_eq] at h
  obtain ⟨each, heach, rfl⟩ := Answer.map_eq_ok.mp h
  obtain ⟨first, second, -, hsecond, rfl⟩ := visitEach_append heach
  obtain ⟨entry, hsome, hsecond⟩ := Answer.bind_eq_ok.mp hsecond
  obtain ⟨others, hothers, hsecond⟩ := Answer.bind_eq_ok.mp hsecond
  cases hentry.symm.trans hsome
  cases hsecond
  refine ⟨left, ?_, hempty⟩
  -- No later entry is written under the name, so what the source became is not replaced.
  have hfresh : key ∉ Record.names others := by
    intro hm
    obtain ⟨entry, he, hkey⟩ := List.mem_map.mp hm
    obtain ⟨later, hl, hlater⟩ := mem_visitEach hothers he
    subst hkey
    exact hlast later hl (writtenAs_of_visitEntry hp hwritten.plain hlater)
  have hmerge : Record.merge [] (first ++ ((some (key, left)).toList ++ others)) =
      ((Record.merge [] first).set key left).merge others := Record.merge_append _ _ _
  rw [hmerge, Record.get?_merge_of_not_mem hfresh, Record.get?_set_self]

/-- What is said of the fields of a filter, of what the check kept of it and of the query of that:
every field kept has a source; its object is empty if that of the source was, or lost all of its
conditions; and then it is empty in the query. -/
structure Emptied (v : Validator) (given kept query : Record Value) : Prop where
  sourced : ∀ field ∈ kept, Operator.isLogicalToken field.1 = false →
    ∃ source, v.Source given field.1 source
  empty_iff : ∀ key source, v.Source given key source →
    ((key, .object []) ∈ kept ↔ source.2 = .object [] ∨ v.Stripped source)
  asked_iff : ∀ key, Operator.isLogicalToken key = false →
    ((key, .object []) ∈ query ↔ (key, .object []) ∈ kept)

/-- The same of a filter that is combined with others. -/
def BranchEmptied (v : Validator) (item branch : Value) : Prop :=
  ∀ kept, branch = .object kept → ∃ given query, item = .object given ∧
    ofBranch branch = .object query ∧ v.branch.Emptied given kept query

theorem emptied_of_visitFields (hp : v.policy = .remove) {given kept query : Record Value}
    (h : v.visitFields given [] = .ok kept)
    (hquery : ∀ key, Operator.isLogicalToken key = false →
      ((key, .object []) ∈ query ↔ (key, .object []) ∈ kept)) :
    v.Emptied given kept query where
  sourced field hf hplain := by
    rw [visitFields_eq] at h
    obtain ⟨each, heach, rfl⟩ := Answer.map_eq_ok.mp h
    obtain ⟨found, hfound, hentry⟩ := mem_visitEach heach (Record.mem_of_mem_ofList hf)
    exact exists_source ⟨found, hfound, writtenAs_of_visitEntry hp hplain hentry⟩
  empty_iff key source hsource := by
    obtain ⟨left, hleft, hempty⟩ := get?_of_source hp hsource h
    obtain ⟨hdistinct, -⟩ := visitFields_stays h
    rw [← hempty]
    constructor
    · intro hm
      exact Option.some.inj (hleft.symm.trans (hdistinct.get?_of_mem hm))
    · rintro rfl
      exact Record.mem_of_get? hleft
  asked_iff := hquery

theorem branchEmptied_of_visitBranch (hp : v.policy = .remove) {item branch : Value}
    (h : v.visitBranch item = .ok branch) : v.BranchEmptied item branch := by
  rintro kept rfl
  cases item with
  | object given =>
    rw [visitBranch_object] at h
    obtain ⟨_, hkept, heq⟩ := Answer.map_eq_ok.mp h
    cases heq
    have hbranch : v.branch.policy = .remove := hp
    exact ⟨given, _, rfl, rfl, emptied_of_visitFields hbranch hkept fun key _ =>
      mem_map_empty_iff (fun _ => ofConditions) (fun _ => ofConditions_eq_empty_iff) kept⟩
  | _ => cases h

theorem branchesEmptied_of_visitBranches (hp : v.policy = .remove) {items branches : List Value}
    (h : v.visitBranches items = .ok branches) : List.Forall₂ v.BranchEmptied items branches := by
  induction items generalizing branches with
  | nil =>
    cases h
    exact .nil
  | cons item rest ih =>
    rw [visitBranches] at h
    obtain ⟨first, hfirst, h⟩ := Answer.bind_eq_ok.mp h
    obtain ⟨others, hothers, h⟩ := Answer.bind_eq_ok.mp h
    cases h
    exact .cons (branchEmptied_of_visitBranch hp hfirst) (ih hothers)

/-- A list under a logical operator is made of the filters that were given under that operator. -/
theorem visitBranches_of_mem {given kept : Record Value} (h : v.visitFields given [] = .ok kept)
    {op : LogicalOperator} {branches : List Value}
    (hm : ((Operator.logical op).token, .list branches) ∈ kept) :
    ∃ items, ((Operator.logical op).token, .list items) ∈ given ∧
      v.visitBranches items = .ok branches := by
  have hlogical := Operator.isLogicalToken_iff.mpr ⟨op, Operator.ofToken?_token (.logical op)⟩
  rw [visitFields_eq] at h
  obtain ⟨each, heach, rfl⟩ := Answer.map_eq_ok.mp h
  obtain ⟨⟨name, value⟩, hf, hentry⟩ := mem_visitEach heach (Record.mem_of_mem_ofList hm)
  have hescapes : ¬ v.Escapes name := by
    intro hescapes
    have heq := Except.ok.inj ((visitEntry_of_escapes hescapes value).symm.trans hentry)
    have hname : "\\" ++ name = (Operator.logical op).token :=
      congrArg Prod.fst (Option.some.inj heq)
    have hplain := (WrittenAs.escaped hescapes).plain
    rw [hname] at hplain
    cases hplain.symm.trans hlogical
  obtain ⟨-, left, hvisit, heq⟩ := (visitEntry_eq_some hescapes).mp hentry
  obtain ⟨rfl, rfl⟩ := Prod.mk.inj heq
  cases value with
  | list items =>
    rw [visit, if_pos hlogical] at hvisit
    obtain ⟨_, hbranches, heq⟩ := Answer.map_eq_ok.mp hvisit
    cases heq
    exact ⟨items, hf, hbranches⟩
  | object conditions =>
    obtain ⟨_, -, heq⟩ := Answer.map_eq_ok.mp hvisit
    cases heq
  | _ => cases hvisit

/-- Where refused entries are left out, the fields with an empty object are those that had one, and
those of which no condition stays: such a field is not left out, neither from the filter nor from
its query. The same holds of the filters that a logical operator combines. -/
theorem emptied_of_validate (hp : v.policy = .remove) (tree : Value) :
    ∃ result, v.validate tree = .ok result ∧ ∀ kept, result = .object kept →
      v.Emptied ((tree.object?).getD []) kept (ofFilter kept) ∧
      ∀ op branches, ((Operator.logical op).token, .list branches) ∈ kept →
        ∃ items, ((Operator.logical op).token, .list items) ∈ (tree.object?).getD [] ∧
          List.Forall₂ v.BranchEmptied items branches := by
  obtain ⟨result, hresult⟩ := exists_validate (v := v) (by simp [hp]) tree
  refine ⟨result, hresult, ?_⟩
  rintro kept rfl
  have hkept : v.visitFields ((tree.object?).getD []) [] = .ok kept := by
    cases tree with
    | object given =>
      obtain ⟨_, hvisit, heq⟩ := Answer.map_eq_ok.mp hresult
      cases heq
      exact hvisit
    | null => cases hresult
    | _ =>
      simp only [validate, hp, Except.ok.injEq, Value.object.injEq] at hresult
      subst hresult
      rfl
  constructor
  · refine emptied_of_visitFields hp hkept fun key hplain => ?_
    refine mem_map_empty_iff ofEntry (fun value => ?_) kept
    rw [ofEntry_of_not_logical hplain, ofConditions_eq_empty_iff]
  · intro op branches hm
    obtain ⟨items, hitems, hbranches⟩ := visitBranches_of_mem hkept hm
    exact ⟨items, hitems, branchesEmptied_of_visitBranches hp hbranches⟩

/-- One logical operator is allowed; the other one is escaped to a name that a field has too. -/
def lenient : Validator :=
  ⟨[.value .equals, .logical .or], some ["age", "name", "\\$and"], .remove, true⟩

/-- Fields that lose all conditions or some, one that had none, and one that an escape replaces. -/
def stripping : Record Value :=
  [("name", .object [("$like", .string "T"), ("$gt", .int 3)]),
    ("age", .object [("$eq", .int 3), ("$gt", .int 1)]), ("\\$and", .object [("$gt", .int 1)]),
    ("$or", .list [.object [("name", .object [("$gt", .int 3)]), ("age", .object [])], .int 1]),
    ("$and", .object [("$gt", .int 1)])]

theorem emptied_of_validate_stripping :
    let branches : List Value := [.object [("name", .object []), ("age", .object [])], .int 1]
    let kept : Record Value :=
      [("name", .object []), ("age", .object [("$eq", .int 3)]),
        ("\\$and", .object [("$gt", .int 1)]), ("$or", .list branches)]
    lenient.policy = .remove ∧ lenient.validate (.object stripping) = .ok (.object kept) ∧
    lenient.Emptied stripping kept (ofFilter kept) ∧
    ∃ items, ("$or", .list items) ∈ stripping ∧
      List.Forall₂ lenient.BranchEmptied items branches := by
  intro branches kept
  have hkept : lenient.validate (.object stripping) = .ok (.object kept) := rfl
  obtain ⟨result, hresult, h⟩ := emptied_of_validate (v := lenient) rfl (.object stripping)
  cases hkept.symm.trans hresult
  obtain ⟨hfields, hbranches⟩ := h kept rfl
  exact ⟨rfl, hkept, hfields, hbranches .or branches (by simp [kept, Operator.token])⟩

/-- A field whose only operator is unknown does not go with it: what is asked for in its place is a
document in which the field is an empty object. -/
theorem emptied_of_unknown_operator :
    let v : Validator := ⟨Operator.all, none, .remove, false⟩
    let given : Record Value := [("name", .object [("$like", .string "T")])]
    let kept : Record Value := [("name", .object [])]
    v.policy = .remove ∧ v.validate (.object given) = .ok (.object kept) ∧
    ("name", .object []) ∉ given ∧ ofFilter kept = [("name", .object [])] := by
  exact ⟨rfl, rfl, by simp, rfl⟩

end Validator

end DocumentApi
