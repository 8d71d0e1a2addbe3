import DocumentApi.Filter.DeepObject
import Mathlib.Data.List.Forall2
import Mathlib.Data.List.Nodup

/-!
Values that differ in the order of fields only. What is read from them differs in the order of
fields only, too: an object whose names are positions makes the same list, since no two of its names
stand for one position. Main statement: `alike_toLists_object`.
-/

set_option autoImplicit false

namespace DocumentApi

/-! Elements with keys. -/

section Keyed
variable {κ α β : Type}

/-- Elements with one key, and with values that are related. -/
def SameKeyed (R : α → β → Prop) (a : κ × α) (b : κ × β) : Prop := a.1 = b.1 ∧ R a.2 b.2

variable {R : α → β → Prop} {as : List (κ × α)} {bs : List (κ × β)}

theorem map_fst_eq_of_sameKeyed (h : List.Forall₂ (SameKeyed R) as bs) :
    as.map (·.1) = bs.map (·.1) := by
  induction h with
  | nil => rfl
  | cons hab _ ih => rw [List.map_cons, List.map_cons, hab.1, ih]

theorem map_snd_of_sameKeyed (h : List.Forall₂ (SameKeyed R) as bs) :
    List.Forall₂ R (as.map (·.2)) (bs.map (·.2)) := by
  induction h with
  | nil => exact .nil
  | cons hab _ ih => exact .cons hab.2 ih

variable {le : κ → κ → Bool}

theorem forall₂_insertBy {a : κ × α} {b : κ × β} (hab : SameKeyed R a b)
    (h : List.Forall₂ (SameKeyed R) as bs) :
    List.Forall₂ (SameKeyed R) (insertBy le Prod.fst a as) (insertBy le Prod.fst b bs) := by
  induction h with
  | nil => exact .cons hab .nil
  | cons hcd hrest ih =>
    rw [insertBy, insertBy, ← hab.1, ← hcd.1]
    split
    · exact .cons hab (.cons hcd hrest)
    · exact .cons hcd ih

/-- Lists that agree in their keys are sorted alike. -/
theorem forall₂_sortBy (h : List.Forall₂ (SameKeyed R) as bs) :
    List.Forall₂ (SameKeyed R) (sortBy le Prod.fst as) (sortBy le Prod.fst bs) := by
  induction h with
  | nil => exact .nil
  | cons hab _ ih => exact forall₂_insertBy hab ih

/-- Where no two elements have one key, there is one order for them. -/
theorem sortBy_eq_of_perm {key : α → κ} (total : ∀ i j, le i j ∨ le j i)
    (trans : ∀ {i j k}, le i j → le j k → le i k) (antisymm : ∀ {i j}, le i j → le j i → i = j)
    {as bs : List α} (h : as.Perm bs) (hkeys : (as.map key).Nodup) :
    sortBy le key as = sortBy le key bs := by
  have hperm : (sortBy le key as).Perm (sortBy le key bs) :=
    (sortBy_perm le key as).trans (h.trans (sortBy_perm le key bs).symm)
  refine List.Perm.eq_of_pairwise ?_ (pairwise_sortBy le key total trans as)
    (pairwise_sortBy le key total trans bs) hperm
  intro a b ha hb hab hba
  have ha' : a ∈ as := (sortBy_perm le key as).mem_iff.mp ha
  have hb' : b ∈ as := h.mem_iff.mpr ((sortBy_perm le key bs).mem_iff.mp hb)
  exact List.inj_on_of_nodup_map hkeys ha' hb' (antisymm hab hba)

end Keyed

/-! Answers. -/

namespace Answer

variable {α β γ δ : Type}

/-- Two answers that are both failures, or both given and related. -/
inductive Alike (R : α → β → Prop) : Answer α → Answer β → Prop where
  | given {a : α} {b : β} (h : R a b) : Alike R (.ok a) (.ok b)
  | failed (failure other : Failure) : Alike R (.error failure) (.error other)

theorem Alike.refl {R : α → α → Prop} (hR : ∀ a, R a a) (answer : Answer α) :
    Alike R answer answer := by
  cases answer with
  | ok a => exact .given (hR a)
  | error failure => exact .failed failure failure

theorem Alike.bind {R : α → β → Prop} {S : γ → δ → Prop} {answer : Answer α} {other : Answer β}
    {f : α → Answer γ} {g : β → Answer δ} (h : Alike R answer other)
    (hnext : ∀ a b, answer = .ok a → R a b → Alike S (f a) (g b)) :
    Alike S (answer >>= f) (other >>= g) := by
  cases h with
  | given h => exact hnext _ _ rfl h
  | failed failure other => exact .failed failure other

theorem Alike.map {R : α → β → Prop} {S : γ → δ → Prop} {answer : Answer α} {other : Answer β}
    {f : α → γ} {g : β → δ} (h : Alike R answer other) (hmap : ∀ a b, R a b → S (f a) (g b)) :
    Alike S (f <$> answer) (g <$> other) := by
  cases h with
  | given h => exact .given (hmap _ _ h)
  | failed failure other => exact .failed failure other

theorem Alike.trans {R : α → β → Prop} {S : β → γ → Prop} {T : α → γ → Prop} {first : Answer α}
    {second : Answer β} {third : Answer γ} (h : Alike R first second) (h' : Alike S second third)
    (hcomp : ∀ a b c, R a b → S b c → T a c) : Alike T first third := by
  cases h with
  | given h =>
    cases h' with
    | given h' => exact .given (hcomp _ _ _ h h')
  | failed failure _ =>
    cases h' with
    | failed _ other => exact .failed failure other

theorem alike_mapM_of_forall₂ {R : γ → δ → Prop} {f : α → Answer γ} {g : β → Answer δ}
    {as : List α} {bs : List β} (h : List.Forall₂ (fun a b => Alike R (f a) (g b)) as bs) :
    Alike (List.Forall₂ R) (as.mapM f) (bs.mapM g) := by
  induction h with
  | nil => exact .given .nil
  | cons hab _ ih =>
    rw [List.mapM_cons, List.mapM_cons]
    apply hab.bind
    intro c d _ hcd
    apply ih.bind
    intro cs ds _ hrest
    exact .given (.cons hcd hrest)

/-- An answer is given for each element in any order, or in none. -/
theorem alike_mapM_of_perm {f : α → Answer β} {as bs : List α} (h : as.Perm bs) :
    Alike List.Perm (as.mapM f) (bs.mapM f) := by
  induction h with
  | nil => exact .given (.refl [])
  | cons a _ ih =>
    rw [List.mapM_cons, List.mapM_cons]
    apply (Alike.refl (R := Eq) (fun _ => rfl) (f a)).bind
    intro b c _ hbc
    subst hbc
    apply ih.bind
    intro cs ds _ hrest
    exact .given (hrest.cons b)
  | swap a b rest =>
    simp only [List.mapM_cons]
    cases f a with
    | error failure =>
      cases f b with
      | error other => exact .failed other failure
      | ok c => exact .failed failure failure
    | ok c =>
      cases f b with
      | error failure => exact .failed failure failure
      | ok d =>
        cases rest.mapM f with
        | error failure => exact .failed failure failure
        | ok others => exact .given (.swap c d others)
  | trans _ _ ih ih' => exact ih.trans ih' fun _ _ _ => List.Perm.trans

end Answer

/-! Values. -/

/-- Equal up to the order of the fields of objects at any depth. The items of lists are in order. -/
inductive Value.SameUpToOrder : Value → Value → Prop where
  | same (v : Value) : SameUpToOrder v v
  | list {items others : List Value} (each : List.Forall₂ SameUpToOrder items others) :
    SameUpToOrder (.list items) (.list others)
  | object {fields ordered others : Record Value} (names : fields.names = ordered.names)
      (values : List.Forall₂ SameUpToOrder fields.values ordered.values)
      (perm : ordered.Perm others) : SameUpToOrder (.object fields) (.object others)

section Fields
variable {κ α β : Type}

/-- Elements by the same keys, in any order, with values that are related. -/
def SameFields (R : α → β → Prop) (fields : List (κ × α)) (others : List (κ × β)) : Prop :=
  ∃ ordered, List.Forall₂ (SameKeyed R) fields ordered ∧ ordered.Perm others

variable {R : α → β → Prop}

/-- What is answered for each of the fields alone is answered for all of them, in any order. -/
theorem alike_mapM_of_sameFields {γ δ ι : Type} {S : γ → δ → Prop} {f : κ × α → Answer (ι × γ)}
    {g : κ × β → Answer (ι × δ)} {fields : List (κ × α)} {others : List (κ × β)}
    (h : SameFields R fields others)
    (heach : ∀ a b, SameKeyed R a b → Answer.Alike (SameKeyed S) (f a) (g b)) :
    Answer.Alike (SameFields S) (fields.mapM f) (others.mapM g) := by
  obtain ⟨ordered, hsame, hperm⟩ := h
  have hmap := Answer.alike_mapM_of_forall₂ (hsame.imp heach)
  apply hmap.trans (Answer.alike_mapM_of_perm hperm)
  intro read middle other hread hother
  exact ⟨middle, hread, hother⟩

variable {fields : Record α} {others : Record β}

theorem SameFields.names (h : SameFields R fields others) : fields.names.Perm others.names := by
  obtain ⟨ordered, hsame, hperm⟩ := h
  rw [Record.names, map_fst_eq_of_sameKeyed hsame]
  exact hperm.map _

theorem SameFields.all_eq (h : SameFields R fields others) (p : String → Bool) :
    (fields.all fun field => p field.1) = others.all fun field => p field.1 := by
  have hnames : fields.names.all p = others.names.all p := h.names.all_eq
  rw [Record.names, Record.names, List.all_map, List.all_map] at hnames
  exact hnames

theorem SameFields.isEmpty_eq (h : SameFields R fields others) :
    fields.isEmpty = others.isEmpty := by
  have hnames := h.names.isEmpty_eq
  simpa [Record.names] using hnames

theorem SameFields.object {fields others : Record Value}
    (h : SameFields Value.SameUpToOrder fields others) :
    Value.SameUpToOrder (.object fields) (.object others) := by
  obtain ⟨ordered, hsame, hperm⟩ := h
  exact .object (map_fst_eq_of_sameKeyed hsame) (map_snd_of_sameKeyed hsame) hperm

/-- Records with the same names, and with related values under each of them. -/
theorem sameFields_of_get? {R : Value → Value → Prop} {fields others : Record Value}
    (hdistinct : fields.Distinct) (hdistinct' : others.Distinct)
    (hnames : ∀ name, name ∈ fields.names ↔ name ∈ others.names)
    (hvalues : ∀ name v w, fields.get? name = some v → others.get? name = some w → R v w) :
    SameFields R fields others := by
  have hget {field : String × Value} (hf : field ∈ fields) :
      ∃ w, others.get? field.1 = some w := by
    apply Option.ne_none_iff_exists'.mp
    rw [Ne, Record.get?_eq_none_iff, not_not, ← hnames]
    exact List.mem_map_of_mem hf
  let counterpart (field : String × Value) := (field.1, (others.get? field.1).getD .null)
  refine ⟨fields.map counterpart, ?_, ?_⟩
  · rw [List.forall₂_map_right_iff, List.forall₂_same]
    intro field hf
    obtain ⟨w, hw⟩ := hget hf
    have hvalue : (counterpart field).2 = w := by simp [counterpart, hw]
    exact ⟨rfl, hvalue ▸ hvalues field.1 field.2 w (hdistinct.get?_of_mem hf) hw⟩
  · have hnodup : (fields.map counterpart).Nodup := by
      apply List.Nodup.of_map Prod.fst
      rw [List.map_map]
      exact hdistinct
    rw [List.perm_ext_iff_of_nodup hnodup (List.Nodup.of_map _ hdistinct')]
    intro other
    rw [List.mem_map]
    constructor
    · rintro ⟨field, hf, rfl⟩
      obtain ⟨w, hw⟩ := hget hf
      simpa [counterpart, hw] using Record.mem_of_get? hw
    · intro ho
      have hname : other.1 ∈ fields.names := (hnames other.1).mpr (List.mem_map_of_mem ho)
      obtain ⟨field, hf, hfield⟩ := List.mem_map.mp hname
      have hother := hdistinct'.get?_of_mem ho
      exact ⟨field, hf, by simp [counterpart, hfield, hother]⟩

end Fields

namespace DeepObject

open Value (SameUpToOrder)

/-! Positions. -/

/-- The number that a name made of figures stands for. -/
def number? (name : String) : Option Int :=
  if Text.isFigures name.toList then (Numeral.readInt name.toList).toOption else none

/-- Two names stand for one position. -/
def SameNumber (name other : String) : Prop := ∃ i ∈ number? name, i ∈ number? other

instance (name other : String) : Decidable (SameNumber name other) :=
  inferInstanceAs (Decidable (∃ _ ∈ _, _))

/-- No two fields have one name, or names that stand for one position. -/
structure Untied (names : List String) : Prop where
  nodup : names.Nodup
  numbers : ∀ name ∈ names, ∀ other ∈ names, name ≠ other → ¬ SameNumber name other

section Index
variable {fields : Record Value} {indexed : List (Int × Value)}
  (hfigures : ∀ field ∈ fields, Text.isFigures field.1.toList = true)
include hfigures

theorem map_number?_of_mapM_index (h : fields.mapM index = .ok indexed) :
    fields.names.map number? = (indexed.map (·.1)).map some := by
  induction fields generalizing indexed with
  | nil =>
    cases h
    rfl
  | cons field rest ih =>
    rw [List.mapM_cons] at h
    obtain ⟨read, hread, h⟩ := Answer.bind_eq_ok.mp h
    obtain ⟨others, hothers, h⟩ := Answer.bind_eq_ok.mp h
    cases h
    have hnumber : number? field.1 = some read.1 := by
      rw [number?, if_pos (hfigures field List.mem_cons_self)]
      unfold index at hread
      split at hread
      · rename_i i hi
        cases hread
        rw [hi]
        rfl
      · cases hread
    have hrest := ih (fun f hf => hfigures f (List.mem_cons_of_mem field hf)) hothers
    exact congrArg₂ List.cons hnumber hrest

theorem nodup_of_mapM_index (huntied : Untied fields.names) (h : fields.mapM index = .ok indexed) :
    (indexed.map (·.1)).Nodup := by
  have hnumbers := map_number?_of_mapM_index hfigures h
  apply List.Nodup.of_map some
  rw [← hnumbers]
  refine huntied.nodup.map_on ?_
  intro name hname other hother hsame
  by_contra hne
  have hread : number? name ∈ (indexed.map (·.1)).map some := hnumbers ▸ List.mem_map_of_mem hname
  obtain ⟨i, -, hi⟩ := List.mem_map.mp hread
  exact huntied.numbers name hname other hother hne ⟨i, hi.symm, hsame ▸ hi.symm⟩

end Index

theorem alike_index {R : Value → Value → Prop} {field other : String × Value}
    (h : SameKeyed R field other) : Answer.Alike (SameKeyed R) (index field) (index other) := by
  rw [index, index, ← h.1]
  cases Numeral.readInt field.1.toList with
  | ok i => exact .given ⟨rfl, h.2⟩
  | error fault => exact .failed _ _

/-- The order of the fields does not matter to the order of the positions. -/
theorem alike_byIndex {fields others : Record Value}
    (hsame : SameFields SameUpToOrder fields others) (huntied : Untied fields.names) :
    Answer.Alike SameUpToOrder (byIndex fields) (byIndex others) := by
  have hall := hsame.all_eq fun name => Text.isFigures name.toList
  rw [byIndex, byIndex, ← hsame.isEmpty_eq, ← hall]
  split
  · rename_i hfigures
    rw [Bool.and_eq_true, List.all_eq_true] at hfigures
    apply (alike_mapM_of_sameFields hsame fun a b => alike_index).bind
    intro read other hread hrelated
    obtain ⟨middle, hmiddle, hperm⟩ := hrelated
    have hkeys : (middle.map (·.1)).Nodup := by
      rw [← map_fst_eq_of_sameKeyed hmiddle]
      exact nodup_of_mapM_index hfigures.2 huntied hread
    have horder : sortBy (fun i j : Int => decide (i ≤ j)) Prod.fst middle =
        sortBy (fun i j : Int => decide (i ≤ j)) Prod.fst other := by
      refine sortBy_eq_of_perm ?_ ?_ ?_ hperm hkeys
      · intro i j
        simpa using Int.le_total i j
      · intro i j k
        simpa using Int.le_trans
      · intro i j
        simpa using Int.le_antisymm
    refine .given (.list (map_snd_of_sameKeyed ?_))
    rw [← horder]
    exact forall₂_sortBy hmiddle
  · exact .given hsame.object

/-! Fields. -/

theorem fieldsToLists_eq_mapM (fields : Record Value) :
    fieldsToLists fields =
      fields.mapM fun field => (fun v => (field.1, v)) <$> toLists field.2 := by
  induction fields with
  | nil => rfl
  | cons field rest ih =>
    obtain ⟨name, v⟩ := field
    rw [fieldsToLists, ih, List.mapM_cons]
    cases toLists v <;> rfl

/-- Objects whose fields are read alike are read alike, whatever the order of the fields. -/
theorem alike_toLists_object {fields others : Record Value}
    (hsame : SameFields (fun v w => Answer.Alike SameUpToOrder (toLists v) (toLists w))
      fields others)
    (huntied : Untied fields.names) :
    Answer.Alike SameUpToOrder (toLists (.object fields)) (toLists (.object others)) := by
  have hfields : Answer.Alike (SameFields SameUpToOrder) (fieldsToLists fields)
      (fieldsToLists others) := by
    rw [fieldsToLists_eq_mapM, fieldsToLists_eq_mapM]
    apply alike_mapM_of_sameFields hsame
    intro a b hab
    exact hab.2.map fun v w hvw => ⟨hab.1, hvw⟩
  rw [toLists, toLists]
  apply hfields.bind
  intro read other hread hrelated
  apply alike_byIndex hrelated
  rw [names_fieldsToLists hread]
  exact huntied

end DeepObject

end DocumentApi
