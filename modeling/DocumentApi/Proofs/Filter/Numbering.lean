import DocumentApi.Proofs.Paging.Clamp
import DocumentApi.Proofs.Paging.Query

/-!
What can go wrong when the query of a list request is read. A figure need not be a digit, and a
number may have too many of them, so an object whose names are all made of figures may have no order
in which it is a list (`Misnumbered`). Apart from that, parameters are read or refused. Main
statement: `parse_readsOrRefuses_iff`.
-/

set_option autoImplicit false

namespace DocumentApi

namespace Answer

variable {α : Type}

/-- The query is read, or refused as one that the client has to mend. -/
def ReadsOrRefuses (answer : Answer α) : Prop :=
  (∃ a, answer = .ok a) ∨ ∃ detail, answer = .error (.ofProblem .filterText detail)

theorem not_readsOrRefuses_numeral {name : String} {fault : Numeral.IntFault} :
    ¬ ReadsOrRefuses (.error (.numeral name fault) : Answer α) := by
  rintro (⟨_, hread⟩ | ⟨_, hrefused⟩)
  · cases hread
  · cases hrefused

end Answer

namespace DeepObject

/-! Positions that cannot be read. -/

/-- A name made of figures that is no number. -/
structure Unread (name : String) (fault : Numeral.IntFault) : Prop where
  figures : Text.isFigures name.toList = true
  read : Numeral.readInt name.toList = .error fault

/-- Names that all look like positions, but are not all numbers. -/
def Misnumbers (names : List String) : Prop :=
  (∀ name ∈ names, Text.isFigures name.toList = true) ∧
    ∃ name ∈ names, ∃ fault, Unread name fault

inductive Misnumbered : Value → Prop where
  | here {fields : Record Value} (h : Misnumbers fields.names) : Misnumbered (.object fields)
  | field {fields : Record Value} (field : String × Value) (hf : field ∈ fields)
      (h : Misnumbered field.2) : Misnumbered (.object fields)
  | item {items : List Value} (v : Value) (hv : v ∈ items) (h : Misnumbered v) :
    Misnumbered (.list items)

/-- An answer that is given unless something is misnumbered, and then tells of a name that cannot
be read. -/
inductive Numbered {α : Type} (allowed : String → Prop) (misnumbered : Prop) : Answer α → Prop where
  | ok (a : α) (h : ¬ misnumbered) : Numbered allowed misnumbered (.ok a)
  | error (name : String) (fault : Numeral.IntFault) (hname : allowed name)
      (hunread : Unread name fault) (h : misnumbered) :
    Numbered allowed misnumbered (.error (.numeral name fault))

section Numbered
variable {α β : Type} {allowed : String → Prop} {p q : Prop} {answer : Answer α}

theorem Numbered.congr (h : Numbered allowed p answer) (hpq : p ↔ q) :
    Numbered allowed q answer := by
  cases h with
  | ok a h => exact .ok a fun hq => h (hpq.mpr hq)
  | error name fault hname hunread h => exact .error name fault hname hunread (hpq.mp h)

theorem Numbered.bind {next : α → Answer β} (h : Numbered allowed p answer)
    (hnext : ∀ a, answer = .ok a → Numbered allowed q (next a)) :
    Numbered allowed (p ∨ q) (answer >>= next) := by
  cases h with
  | error name fault hname hunread h => exact .error name fault hname hunread (.inl h)
  | ok a hp => exact (hnext a rfl).congr (or_iff_right hp).symm

theorem Numbered.map {f : α → β} (h : Numbered allowed p answer) :
    Numbered allowed p (f <$> answer) := by
  cases h with
  | ok a h => exact .ok (f a) h
  | error name fault hname hunread h => exact .error name fault hname hunread h

end Numbered

/-- An answer that is given or refused unless something is misnumbered. -/
inductive Reading {α : Type} (allowed : String → Prop) (misnumbered : Prop) : Answer α → Prop where
  | read (a : α) (h : ¬ misnumbered) : Reading allowed misnumbered (.ok a)
  | refused (detail : String) (h : ¬ misnumbered) :
    Reading allowed misnumbered (.error (.ofProblem .filterText detail))
  | unread (name : String) (fault : Numeral.IntFault) (hname : allowed name)
      (hunread : Unread name fault) (h : misnumbered) :
    Reading allowed misnumbered (.error (.numeral name fault))

namespace Reading

variable {α β : Type} {allowed : String → Prop} {p q : Prop} {answer : Answer α}

theorem imp {allowed' : String → Prop} (h : Reading allowed p answer)
    (himp : ∀ name, allowed name → allowed' name) (hpq : p ↔ q) : Reading allowed' q answer := by
  cases h with
  | read a h => exact .read a fun hq => h (hpq.mpr hq)
  | refused detail h => exact .refused detail fun hq => h (hpq.mpr hq)
  | unread name fault hname hunread h =>
    exact .unread name fault (himp name hname) hunread (hpq.mp h)

/-- What is read second matters only if what is read first is given. -/
theorem bind {next : α → Answer β} (h : Reading allowed p answer)
    (hnext : ∀ a, answer = .ok a → Reading allowed q (next a)) :
    Reading allowed (p ∨ (∃ a, answer = .ok a) ∧ q) (answer >>= next) := by
  cases h with
  | read a h =>
    refine (hnext a rfl).imp (fun _ => id) ⟨fun hq => .inr ⟨⟨a, rfl⟩, hq⟩, ?_⟩
    rintro (hp | ⟨-, hq⟩)
    · exact absurd hp h
    · exact hq
  | refused detail h =>
    refine .refused detail ?_
    rintro (hp | ⟨⟨_, hgiven⟩, -⟩)
    · exact h hp
    · cases hgiven
  | unread name fault hname hunread h => exact .unread name fault hname hunread (.inl h)

theorem readsOrRefuses_iff (h : Reading allowed p answer) : answer.ReadsOrRefuses ↔ ¬ p := by
  cases h with
  | read a h => exact iff_of_true (.inl ⟨a, rfl⟩) h
  | refused detail h => exact iff_of_true (.inr ⟨detail, rfl⟩) h
  | unread name fault hname hunread h =>
    exact iff_of_false Answer.not_readsOrRefuses_numeral (not_not_intro h)

theorem failure_cases (h : Reading allowed p answer) {failure : Failure}
    (hfailed : answer = .error failure) :
    (∃ detail, failure = .ofProblem .filterText detail) ∨
      ∃ name fault, allowed name ∧ Unread name fault ∧ failure = .numeral name fault := by
  cases h with
  | read a h => cases hfailed
  | refused detail h =>
    cases hfailed
    exact .inl ⟨detail, rfl⟩
  | unread name fault hname hunread h =>
    cases hfailed
    exact .inr ⟨name, fault, hname, hunread, rfl⟩

end Reading

/-- Values of texts, in which all names are of a kind. -/
inductive TextTree (allowed : String → Prop) : Value → Prop where
  | text (s : String) : TextTree allowed (.string s)
  | list {items : List Value} (trees : ∀ v ∈ items, TextTree allowed v) :
    TextTree allowed (.list items)
  | object {fields : Record Value} (names : ∀ name ∈ fields.names, allowed name)
      (trees : ∀ field ∈ fields, TextTree allowed field.2) : TextTree allowed (.object fields)

section Lists
variable {allowed : String → Prop}

theorem numbered_byIndex {fields : Record Value} (h : ∀ name ∈ fields.names, allowed name) :
    Numbered allowed (Misnumbers fields.names) (byIndex fields) := by
  unfold byIndex
  split
  · rename_i hfigures
    rw [Bool.and_eq_true, List.all_eq_true] at hfigures
    have hall : ∀ name ∈ fields.names, Text.isFigures name.toList = true := by
      intro name hname
      obtain ⟨field, hf, rfl⟩ := List.mem_map.mp hname
      exact hfigures.2 field hf
    cases hindexed : fields.mapM index with
    | ok indexed =>
      refine .ok _ ?_
      rintro ⟨-, name, hname, fault, hunread⟩
      obtain ⟨field, hf, rfl⟩ := List.mem_map.mp hname
      obtain ⟨_, hread⟩ := Answer.exists_of_mapM_eq_ok hindexed field hf
      rw [index, hunread.read] at hread
      cases hread
    | error failure =>
      obtain ⟨field, hf, hfailed⟩ := Answer.exists_of_mapM_eq_error hindexed
      have hname : field.1 ∈ fields.names := List.mem_map_of_mem hf
      cases hread : Numeral.readInt field.1.toList with
      | ok i =>
        rw [index, hread] at hfailed
        cases hfailed
      | error fault =>
        rw [index, hread] at hfailed
        cases hfailed
        have hunread : Unread field.1 fault := ⟨hall _ hname, hread⟩
        exact .error _ fault (h _ hname) hunread ⟨hall, _, hname, fault, hunread⟩
  · rename_i hfigures
    refine .ok _ ?_
    rintro ⟨hall, name, hname, -⟩
    apply hfigures
    obtain ⟨field, hf, -⟩ := List.mem_map.mp hname
    rw [Bool.and_eq_true, List.all_eq_true]
    refine ⟨?_, fun other ho => hall _ (List.mem_map_of_mem ho)⟩
    cases fields with
    | nil => cases hf
    | cons first rest => rfl

theorem numbered_itemsToLists {items : List Value}
    (h : ∀ v ∈ items, Numbered allowed (Misnumbered v) (toLists v)) :
    Numbered allowed (∃ v ∈ items, Misnumbered v) (itemsToLists items) := by
  induction items with
  | nil => exact .ok [] (by simp)
  | cons v rest ih =>
    have hrest := ih fun w hw => h w (List.mem_cons_of_mem v hw)
    rw [itemsToLists]
    refine ((h v List.mem_cons_self).bind fun _ _ => hrest.map).congr ?_
    simp

theorem numbered_fieldsToLists {fields : Record Value}
    (h : ∀ field ∈ fields, Numbered allowed (Misnumbered field.2) (toLists field.2)) :
    Numbered allowed (∃ field ∈ fields, Misnumbered field.2) (fieldsToLists fields) := by
  induction fields with
  | nil => exact .ok [] (by simp)
  | cons field rest ih =>
    have hrest := ih fun f hf => h f (List.mem_cons_of_mem field hf)
    obtain ⟨name, v⟩ := field
    rw [fieldsToLists]
    refine ((h (name, v) List.mem_cons_self).bind fun _ _ => hrest.map).congr ?_
    simp

/-- Positions are turned into lists from inside out, and every object with names for positions is
reached unless one before it cannot be read. -/
theorem numbered_toLists {v : Value} (h : TextTree allowed v) :
    Numbered allowed (Misnumbered v) (toLists v) := by
  induction h with
  | text s => exact .ok _ fun h => by cases h
  | @list items trees ih =>
    rw [toLists]
    refine (numbered_itemsToLists ih).map.congr ⟨?_, ?_⟩
    · rintro ⟨v, hv, h⟩
      exact .item v hv h
    · rintro (_ | _ | ⟨v, hv, h⟩)
      exact ⟨v, hv, h⟩
  | @object fields names trees ih =>
    rw [toLists]
    refine ((numbered_fieldsToLists ih).bind (q := Misnumbers fields.names) ?_).congr ⟨?_, ?_⟩
    · intro converted hconverted
      have hnames := names_fieldsToLists hconverted
      exact hnames ▸ numbered_byIndex (hnames ▸ names)
    · rintro (⟨field, hf, hinside⟩ | hhere)
      · exact .field field hf hinside
      · exact .here hhere
    · rintro (hhere | ⟨field, hf, hinside⟩)
      · exact .inr hhere
      · exact .inl ⟨field, hf, hinside⟩

end Lists

/-! The tree that parameters make. -/

section Trees
variable {allowed : String → Prop} {node : Record Value} {v : Value}

theorem TextTree.set (h : TextTree allowed (.object node)) {name : String} (hname : allowed name)
    (hv : TextTree allowed v) : TextTree allowed (.object (node.set name v)) := by
  cases h with
  | object names trees =>
    refine .object (fun other ho => ?_) fun field hf => ?_
    · rcases Record.mem_names_set.mp ho with rfl | hold
      · exact hname
      · exact names other hold
    · rcases Record.mem_set hf with rfl | hold
      · exact hv
      · exact trees field hold

theorem TextTree.of_get? (h : TextTree allowed (.object node)) {name : String}
    (hget : node.get? name = some v) : TextTree allowed v := by
  cases h with
  | object names trees => exact trees _ (Record.mem_of_get? hget)

theorem TextTree.nil : TextTree allowed (.object []) := .object (by simp [Record.names]) (by simp)

theorem textTree_add (h : TextTree allowed (.object node)) {name : String} (hname : allowed name)
    (hv : TextTree allowed v) (asList : Bool) :
    TextTree allowed (.object (add node name v asList)) := by
  unfold add
  split
  · refine h.set hname ?_
    cases asList with
    | true => exact .list (by simpa using hv)
    | false => exact hv
  · rename_i items hget
    refine h.set hname (.list ?_)
    cases h.of_get? hget with
    | list trees =>
      intro w hw
      rcases List.mem_append.mp hw with hold | hlast
      · exact trees w hold
      · exact List.mem_singleton.mp hlast ▸ hv
  · rename_i old _ hget
    exact h.set hname (.list (by simpa using ⟨h.of_get? hget, hv⟩))

/-- What stands in the way of a path is replaced by an object, which is a tree again. -/
theorem textTree_assign (h : TextTree allowed (.object node)) {path : List String}
    (hpath : ∀ name ∈ path, allowed name) (hv : TextTree allowed v) (asList : Bool) :
    TextTree allowed (.object (assign node v asList path)) := by
  induction path generalizing node with
  | nil => exact h
  | cons name rest ih =>
    have hname := hpath name List.mem_cons_self
    cases rest with
    | nil => exact textTree_add h hname hv asList
    | cons next others =>
      refine h.set hname (ih ?_ fun other ho => hpath other (List.mem_cons_of_mem name ho))
      cases hget : node.get? name with
      | none => exact .nil
      | some child =>
        have hchild := h.of_get? hget
        cases child with
        | object fields => exact hchild
        | _ => exact .nil

theorem assignNames_cases (node : Record Value) (names : List String) (v : Value) :
    (∃ detail, assignNames node names v = .error (.ofProblem .filterText detail)) ∨
      ∃ path asList, path ⊆ names ∧ assignNames node names v = .ok (assign node v asList path) := by
  unfold assignNames
  dsimp only
  generalize hpath : (if names.getLast? = some "" then names.dropLast else names) = path
  have hsubset : path ⊆ names := by
    rw [← hpath]
    split
    · exact List.dropLast_subset names
    · exact List.Subset.refl names
  cases path.isEmpty with
  | true => exact .inl ⟨_, rfl⟩
  | false => exact .inr ⟨path, _, hsubset, rfl⟩

theorem textTree_assignNames (h : TextTree allowed (.object node)) {names : List String}
    (hnames : ∀ name ∈ names, allowed name) (hv : TextTree allowed v) {next : Record Value}
    (hnext : assignNames node names v = .ok next) : TextTree allowed (.object next) := by
  rcases assignNames_cases node names v with ⟨detail, hrefused⟩ | ⟨path, asList, hpath, hassign⟩
  · cases hrefused.symm.trans hnext
  · cases hassign.symm.trans hnext
    exact textTree_assign h (fun name hname => hnames name (hpath hname)) hv asList

end Trees

/-- A name in brackets of a parameter under a key. -/
def NamedUnder (pairs : Pairs) (key name : String) : Prop :=
  ∃ pair ∈ pairs, ∃ names, segments key pair.1 = .ok (some names) ∧ name ∈ names

/-- The object that the parameters under a key make, positions being names of it still. -/
def collected (pairs : Pairs) (key : String) : Answer (Option (Record Value)) :=
  pairs.foldlM (step key) none

/-- The parameters under a key make an object with positions that cannot be read. -/
def Misread (pairs : Pairs) (key : String) : Prop :=
  ∃ root, collected pairs key = .ok (some root) ∧ Misnumbered (.object root)

theorem segments_error {key name : String} {failure : Failure}
    (h : segments key name = .error failure) :
    ∃ detail, failure = .ofProblem .filterText detail := by
  unfold segments at h
  split at h
  · cases h
  · split at h
    · cases h
    · cases h
      exact ⟨_, rfl⟩

theorem step_error {key : String} {found : Option (Record Value)} {pair : String × Value}
    {failure : Failure} (h : step key found pair = .error failure) :
    ∃ detail, failure = .ofProblem .filterText detail := by
  rcases Answer.bind_eq_error.mp h with hnames | ⟨names, -, h⟩
  · exact segments_error hnames
  · cases names with
    | none => cases h
    | some names =>
      rcases Answer.bind_eq_error.mp h with hfailed | ⟨_, _, h⟩
      · rcases assignNames_cases (found.getD []) names pair.2 with
          ⟨detail, hrefused⟩ | ⟨_, _, -, hassign⟩
        · cases hrefused.symm.trans hfailed
          exact ⟨detail, rfl⟩
        · cases hassign.symm.trans hfailed
      · cases h

/-- What has been found so far is a tree of texts. -/
def FoundTree (allowed : String → Prop) (found : Option (Record Value)) : Prop :=
  TextTree allowed (.object (found.getD []))

theorem foundTree_step {allowed : String → Prop} {key : String} {found next : Option (Record Value)}
    {pair : String × Value} (h : FoundTree allowed found)
    (hnames : ∀ names, segments key pair.1 = .ok (some names) → ∀ name ∈ names, allowed name)
    (hv : TextTree allowed pair.2) (hnext : step key found pair = .ok next) :
    FoundTree allowed next := by
  obtain ⟨names, hsegments, hnext⟩ := Answer.bind_eq_ok.mp hnext
  cases names with
  | none =>
    cases hnext
    exact h
  | some names =>
    obtain ⟨node, hnode, hnext⟩ := Answer.bind_eq_ok.mp hnext
    cases hnext
    exact textTree_assignNames h (hnames names hsegments) hv hnode

/-- Parameters with texts for values make a tree of texts, or one of them is refused. -/
theorem foldlM_step {allowed : String → Prop} {key : String} {pairs : Pairs}
    (hnames : ∀ pair ∈ pairs, ∀ names, segments key pair.1 = .ok (some names) →
      ∀ name ∈ names, allowed name)
    (hv : ∀ pair ∈ pairs, TextTree allowed pair.2) {found : Option (Record Value)}
    (h : FoundTree allowed found) :
    (∃ last, pairs.foldlM (step key) found = .ok last ∧ FoundTree allowed last) ∨
      ∃ detail, pairs.foldlM (step key) found = .error (.ofProblem .filterText detail) := by
  induction pairs generalizing found with
  | nil => exact .inl ⟨found, rfl, h⟩
  | cons pair rest ih =>
    rw [List.foldlM_cons]
    cases hstep : step key found pair with
    | error failure =>
      obtain ⟨detail, rfl⟩ := step_error hstep
      exact .inr ⟨detail, rfl⟩
    | ok next =>
      have hnext := foundTree_step h (hnames pair List.mem_cons_self) (hv pair List.mem_cons_self)
        hstep
      exact ih (fun p hp => hnames p (List.mem_cons_of_mem pair hp))
        (fun p hp => hv p (List.mem_cons_of_mem pair hp)) hnext

theorem collected_cases (params : List Url.Param) (key : String) :
    let pairs := stringPairs params
    (∃ found, collected pairs key = .ok found ∧ FoundTree (NamedUnder pairs key) found) ∨
      ∃ detail, collected pairs key = .error (.ofProblem .filterText detail) := by
  intro pairs
  refine foldlM_step (fun pair hpair names hsegments name hname => ?_) (fun pair hpair => ?_) .nil
  · exact ⟨pair, hpair, names, hsegments, hname⟩
  · obtain ⟨param, -, rfl⟩ := List.mem_map.mp hpair
    exact .text param.2

/-! Reading. -/

def IsFloat (v : Value) : Prop := ∃ x, v = .float x

theorem eq_list_or_object_of_byIndex {fields : Record Value} {v : Value}
    (h : byIndex fields = .ok v) :
    (∃ items, v = .list items) ∨ v = .object fields := by
  unfold byIndex at h
  split at h
  · obtain ⟨_, -, hlist⟩ := Answer.bind_eq_ok.mp h
    cases hlist
    exact .inl ⟨_, rfl⟩
  · cases h
    exact .inr rfl

theorem not_isFloat_of_toLists {allowed : String → Prop} {v w : Value} (h : TextTree allowed v)
    (hw : toLists v = .ok w) : ¬ IsFloat w := by
  rintro ⟨x, rfl⟩
  cases h with
  | text s => cases hw
  | list trees =>
    obtain ⟨_, -, hlist⟩ := Answer.map_eq_ok.mp hw
    cases hlist
  | object names trees =>
    obtain ⟨fields, -, hindex⟩ := Answer.bind_eq_ok.mp hw
    rcases eq_list_or_object_of_byIndex hindex with ⟨items, hlist⟩ | hobject
    · cases hlist
    · cases hobject

theorem exists_of_mem_fieldsToLists {fields converted : Record Value}
    (h : fieldsToLists fields = .ok converted) {field : String × Value} (hf : field ∈ converted) :
    ∃ old ∈ fields, toLists old.2 = .ok field.2 := by
  induction fields generalizing converted with
  | nil =>
    cases h
    cases hf
  | cons first rest ih =>
    obtain ⟨name, v⟩ := first
    rw [fieldsToLists] at h
    obtain ⟨w, hw, h⟩ := Answer.bind_eq_ok.mp h
    obtain ⟨others, hothers, h⟩ := Answer.bind_eq_ok.mp h
    cases h
    rcases List.mem_cons.mp hf with rfl | hf
    · exact ⟨(name, v), List.mem_cons_self, hw⟩
    · obtain ⟨old, hold, hread⟩ := ih hothers hf
      exact ⟨old, List.mem_cons_of_mem _ hold, hread⟩

/-- The fields of an object that is read hold no number of their own. -/
theorem not_isFloat_of_mem {allowed : String → Prop} {root fields : Record Value}
    (h : TextTree allowed (.object root)) (hread : toLists (.object root) = .ok (.object fields))
    {field : String × Value} (hf : field ∈ fields) : ¬ IsFloat field.2 := by
  obtain ⟨converted, hconverted, hindex⟩ := Answer.bind_eq_ok.mp hread
  have hsame : fields = converted := by
    rcases eq_list_or_object_of_byIndex hindex with ⟨items, hlist⟩ | hobject
    · cases hlist
    · exact Value.object.inj hobject
  obtain ⟨old, hold, hlists⟩ := exists_of_mem_fieldsToLists hconverted (hsame ▸ hf)
  cases h with
  | object names trees => exact not_isFloat_of_toLists (trees old hold) hlists

theorem misread_iff {pairs : Pairs} {key : String} {found : Option (Record Value)}
    (h : collected pairs key = .ok found) :
    Misread pairs key ↔ ∃ root, found = some root ∧ Misnumbered (.object root) := by
  simp [Misread, h]

/-- The object under a key, made of what is collected. -/
theorem decode_eq (pairs : Pairs) (key : String) :
    decode pairs key = collected pairs key >>= fun found =>
      match found with
      | none => .ok none
      | some root => toLists (.object root) >>= fun v =>
        match v with
        | .object fields => .ok (some fields)
        | _ =>
          .error (.ofProblem .filterText ("The \"" ++ key ++ "\" parameter MUST be an object")) :=
  rfl

theorem reading_decode (params : List Url.Param) (key : String) :
    let pairs := stringPairs params
    Reading (NamedUnder pairs key) (Misread pairs key) (decode pairs key) := by
  intro pairs
  rw [decode_eq]
  rcases collected_cases params key with ⟨found, hfound, htree⟩ | ⟨detail, hrefused⟩
  · change collected pairs key = .ok found at hfound
    rw [hfound, Answer.ok_bind]
    cases found with
    | none => exact .read none (by simp [misread_iff hfound])
    | some root =>
      have hroot : Misread pairs key ↔ Misnumbered (.object root) := by simp [misread_iff hfound]
      have hnumbered : Numbered (NamedUnder pairs key) (Misnumbered (.object root))
          (toLists (.object root)) := numbered_toLists htree
      dsimp only
      generalize toLists (.object root) = lists at hnumbered
      cases hnumbered with
      | error name fault hname hunread h => exact .unread name fault hname hunread (hroot.mpr h)
      | ok v h =>
        rw [Answer.ok_bind]
        split
        · exact .read _ (mt hroot.mp h)
        · exact .refused _ (mt hroot.mp h)
  · change collected pairs key = _ at hrefused
    rw [hrefused]
    refine .refused detail ?_
    rintro ⟨root, hroot, -⟩
    cases hrefused.symm.trans hroot

theorem not_isFloat_of_decode {params : List Url.Param} {key : String} {fields : Record Value}
    (h : decode (stringPairs params) key = .ok (some fields)) :
    ∀ field ∈ fields, ¬ IsFloat field.2 := by
  rw [decode_eq] at h
  obtain ⟨found, hfound, h⟩ := Answer.bind_eq_ok.mp h
  rcases collected_cases params key with ⟨_, hsame, htree⟩ | ⟨_, hrefused⟩
  · cases hsame.symm.trans hfound
    cases found with
    | none => cases h
    | some root =>
      obtain ⟨v, hlists, h⟩ := Answer.bind_eq_ok.mp h
      split at h
      · cases h
        intro field hf
        exact not_isFloat_of_mem htree hlists hf
      · cases h
  · cases hrefused.symm.trans hfound

end DeepObject

namespace QuerySettings

open DeepObject

variable {s : QuerySettings}

theorem reading_page (hmax : ∀ max ∈ s.limits.max, 1 ≤ max) (params : List Url.Param) :
    let pairs := stringPairs params
    Reading (NamedUnder pairs s.pageKey) (Misread pairs s.pageKey) (s.page pairs) := by
  intro pairs
  have hclamped : ∀ found, decode pairs s.pageKey = .ok found →
      Reading (NamedUnder pairs s.pageKey) False
        (PageRequest.clamped (((found.getD []).get? "size").getD .null)
          (((found.getD []).get? "number").getD .null) s.limits) := by
    intro found hfound
    have hfield : ∀ name, ¬ (((found.getD []).get? name).getD .null).IsInfinite := by
      intro name
      rintro ⟨negative, hinfinite⟩
      cases hget : (found.getD []).get? name with
      | none =>
        rw [hget] at hinfinite
        cases hinfinite
      | some v =>
        rw [hget] at hinfinite
        cases found with
        | none => cases hget
        | some fields =>
          exact not_isFloat_of_decode hfound _ (Record.mem_of_get? hget) ⟨_, hinfinite⟩
    obtain ⟨page, _, _, hpage, -⟩ :=
      PageRequest.exists_clamped hmax (hfield "size") (hfield "number")
    rw [hpage]
    exact .read page id
  exact ((reading_decode params s.pageKey).bind hclamped).imp (fun _ => id) (by simp [pairs])

/-- A query is read, or refused, unless an object with names for positions is reached in it of which
some cannot be read; the failure then tells of such a name. -/
theorem parse_readsOrRefuses_iff {coerced : Bool} (hform : s.form = .deepObject coerced)
    (hmax : ∀ max ∈ s.limits.max, 1 ≤ max) (params : List Url.Param) :
    let pairs := stringPairs params
    (Answer.ReadsOrRefuses (s.parse pairs) ↔ ¬ (Misread pairs s.filtersKey ∨
      (∃ filters, decode pairs s.filtersKey = .ok filters) ∧ Misread pairs s.pageKey)) ∧
    ∀ failure, s.parse pairs = .error failure →
      (∃ detail, failure = .ofProblem .filterText detail) ∨
      ∃ name fault, (∃ key ∈ [s.filtersKey, s.pageKey], NamedUnder pairs key name) ∧
        Unread name fault ∧ failure = .numeral name fault := by
  intro pairs
  let allowed (name : String) : Prop := ∃ key ∈ [s.filtersKey, s.pageKey], NamedUnder pairs key name
  have hfilters : Reading allowed (Misread pairs s.filtersKey) (decode pairs s.filtersKey) :=
    (reading_decode params s.filtersKey).imp (fun _ h => ⟨_, by simp, h⟩) Iff.rfl
  have hpage : Reading allowed (Misread pairs s.pageKey) (s.page pairs) :=
    (reading_page hmax params).imp (fun _ h => ⟨_, by simp, h⟩) Iff.rfl
  have hparse : s.parse pairs = decode pairs s.filtersKey >>= fun found =>
      s.page pairs >>= fun page =>
        .ok ⟨if coerced then found.map Value.coerceFields else found, s.fields pairs,
          listOf pairs s.sortKey, page⟩ := by
    rw [parse, hform, FilterForm.extract]
    cases decode pairs s.filtersKey <;> rfl
  have hreading : Reading allowed (Misread pairs s.filtersKey ∨
      (∃ filters, decode pairs s.filtersKey = .ok filters) ∧ Misread pairs s.pageKey)
      (s.parse pairs) := by
    rw [hparse]
    refine hfilters.bind fun found _ => ?_
    have hgiven := hpage.bind (q := False) fun page _ => .read (α := ListQuery)
      ⟨if coerced then found.map Value.coerceFields else found, s.fields pairs,
        listOf pairs s.sortKey, page⟩ id
    exact hgiven.imp (fun _ => id) (by simp)
  exact ⟨hreading.readsOrRefuses_iff, fun _ hfailed => hreading.failure_cases hfailed⟩

/-- Digits of another script are numbers as well as figures. -/
theorem parse_readsOrRefuses_otherDigits :
    let pairs := stringPairs
      [("filters[$or][1][age]", "3"), ("filters[$or][\u0660][name]", "Tom"), ("page[number]", "x")]
    standard.parse pairs = .ok ⟨some [("$or", .list [.object [("name", .string "Tom")],
      .object [("age", .string "3")]])], none, none, ⟨10, 1, by decide, by decide⟩⟩ ∧
    ¬ Misread pairs "filters" ∧ ¬ Misread pairs "page" := by
  intro pairs
  have hread : standard.parse pairs = .ok ⟨some [("$or", .list [.object [("name", .string "Tom")],
      .object [("age", .string "3")]])], none, none, ⟨10, 1, by decide, by decide⟩⟩ := by
    decide +kernel
  have hfilters : ∃ filters, decode pairs "filters" = .ok filters := by
    obtain ⟨filters, hfilters, -⟩ := Answer.bind_eq_ok.mp hread
    obtain ⟨found, hfound, -⟩ := Answer.bind_eq_ok.mp hfilters
    exact ⟨found, hfound⟩
  have hmax : ∀ max ∈ standard.limits.max, 1 ≤ max := by decide
  have hclear := (parse_readsOrRefuses_iff rfl hmax _).1.mp (.inl ⟨_, hread⟩)
  exact ⟨hread, fun h => hclear (.inl h), fun h => hclear (.inr ⟨hfilters, h⟩)⟩

/-- A raised two is a figure, but no decimal digit. -/
theorem parse_raisedDigit_unread :
    let parsed := standard.parse (stringPairs [("filters[\u00b2]", "x")])
    parsed = .error (.numeral "\u00b2" .malformed) ∧ ¬ Answer.ReadsOrRefuses parsed := by
  have hread : standard.parse (stringPairs [("filters[\u00b2]", "x")]) =
      .error (.numeral "\u00b2" .malformed) := by
    decide +kernel
  exact ⟨hread, fun h => Answer.not_readsOrRefuses_numeral (hread ▸ h)⟩

end QuerySettings

end DocumentApi
