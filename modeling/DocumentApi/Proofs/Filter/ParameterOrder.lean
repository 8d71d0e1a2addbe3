import DocumentApi.Proofs.Filter.FieldOrder
import DocumentApi.Proofs.Filter.Numbering
import DocumentApi.Proofs.Filter.ReadBack

/-!
Parameters in another order. As long as no two names lead to one place, or one of them through the
place of the other, what is gathered under each name does not depend on the others, so the object
that is read differs at most in the order of its fields. Main statement: `decode_reordered`.
-/

set_option autoImplicit false

namespace DocumentApi.DeepObject

open Value (SameUpToOrder)

/-! Paths. -/

/-- The names that lead to the place of a value: an empty last one only asks for a list there. -/
def pathOf (names : Path) : Path := if names.getLast? = some "" then names.dropLast else names

theorem pathOf_cons (name : String) {path : Path} (hne : path ≠ []) :
    pathOf (name :: path) = name :: pathOf path := by
  obtain ⟨next, rest, rfl⟩ := List.exists_cons_of_ne_nil hne
  have hlast : (name :: next :: rest).getLast? = (next :: rest).getLast? := by simp
  unfold pathOf
  rw [hlast]
  split <;> rfl

theorem pathOf_of_descends {name : String} {path : Path} (h : Descends (name :: path)) :
    ∃ rest, pathOf (name :: path) = name :: rest ∧ (rest ≠ [] → Descends path) := by
  by_cases hne : path = []
  · subst hne
    have hname : name ≠ "" := fun he => h.2 (by rw [he])
    exact ⟨[], by simp [pathOf, hname], fun hrest => absurd rfl hrest⟩
  · refine ⟨_, pathOf_cons name hne, fun hrest => ⟨hne, ?_⟩⟩
    rintro rfl
    exact hrest rfl

/-- The names of one object at which two paths part. -/
def fork? : Path → Path → Option (String × String)
  | name :: path, other :: path' => if name = other then fork? path path' else some (name, other)
  | _, _ => none

/-! One value. -/

theorem assignNames_eq (node : Record Value) (names : Path) (v : Value) :
    assignNames node names v =
      if (pathOf names).isEmpty then .error (.ofProblem .filterText "Empty filter parameter name")
      else .ok (assign node v (decide (names.getLast? = some "")) (pathOf names)) := rfl

/-- A value is put somewhere unless its path is empty. -/
theorem assignNames_of_descends {names : Path} (h : Descends names) :
    ∃ name rest, names.head? = some name ∧ pathOf names = name :: rest ∧
      ∀ node v, assignNames node names v =
        .ok (assign node v (decide (names.getLast? = some "")) (name :: rest)) := by
  obtain ⟨name, path, rfl⟩ := List.exists_cons_of_ne_nil h.1
  obtain ⟨rest, hpath, -⟩ := pathOf_of_descends h
  refine ⟨name, rest, rfl, hpath, fun node v => ?_⟩
  rw [assignNames_eq, hpath]
  rfl

theorem assignNames_of_not_descends {names : Path} (h : ¬ Descends names) (node : Record Value)
    (v : Value) : ∃ failure, assignNames node names v = .error failure := by
  have hempty : pathOf names = [] := by
    rw [Descends, not_and_or, not_ne_iff, not_ne_iff] at h
    rcases h with rfl | rfl <;> rfl
  rw [assignNames_eq, hempty]
  exact ⟨_, rfl⟩

section Assign
variable {node : Record Value} {v : Value} {asList : Bool} {name : String} {rest : Path}

theorem exists_assign_eq_set (node : Record Value) (v : Value) (asList : Bool) (name : String)
    (rest : Path) : ∃ w, assign node v asList (name :: rest) = node.set name w ∧
      ∀ other : Record Value, other.get? name = node.get? name →
        assign other v asList (name :: rest) = other.set name w := by
  cases rest with
  | nil =>
    simp only [assign, add]
    cases hget : node.get? name with
    | none => exact ⟨_, rfl, fun other hother => by rw [hother]⟩
    | some old =>
      cases old with
      | list items => exact ⟨_, rfl, fun other hother => by rw [hother]⟩
      | _ => exact ⟨_, rfl, fun other hother => by rw [hother]⟩
  | cons next others =>
    refine ⟨_, rfl, fun other hother => ?_⟩
    simp only [assign, hother]

end Assign

/-! Many values. -/

abbrev Entries := List (Path × Value)

theorem exists_gather {entries : Entries} (h : ∀ entry ∈ entries, Descends entry.1)
    (node : Record Value) : ∃ root, gather node entries = .ok root := by
  induction entries generalizing node with
  | nil => exact ⟨node, rfl⟩
  | cons entry rest ih =>
    obtain ⟨hentry, hothers⟩ := List.forall_mem_cons.mp h
    obtain ⟨_, _, -, -, hassign⟩ := assignNames_of_descends hentry
    obtain ⟨root, hroot⟩ := ih hothers _
    exact ⟨root, by rw [gather_cons, hassign, Answer.ok_bind, hroot]⟩

section Gather
variable {entries : Entries} {node root : Record Value}

/-- A step of gathering sets the field of the first name of a path, by what that field was. -/
theorem gather_cons_eq_ok {entry : Path × Value} (hentry : Descends entry.1)
    (h : gather node (entry :: entries) = .ok root) :
    ∃ name w, entry.1.head? = some name ∧ gather (node.set name w) entries = .ok root ∧
      ∀ (other : Record Value) (tail : Entries), other.get? name = node.get? name →
        gather other (entry :: tail) = gather (other.set name w) tail := by
  obtain ⟨name, rest, hhead, -, hassign⟩ := assignNames_of_descends hentry
  obtain ⟨w, hset, hother⟩ := exists_assign_eq_set node entry.2
    (decide (entry.1.getLast? = some "")) name rest
  rw [gather_cons, hassign, Answer.ok_bind, hset] at h
  refine ⟨name, w, hhead, h, fun other tail hget => ?_⟩
  rw [gather_cons, hassign, Answer.ok_bind, hother other hget]

variable (hdescends : ∀ entry ∈ entries, Descends entry.1)
include hdescends

theorem mem_names_gather (h : gather node entries = .ok root) {name : String} :
    name ∈ root.names ↔ name ∈ node.names ∨ ∃ entry ∈ entries, entry.1.head? = some name := by
  induction entries generalizing node with
  | nil =>
    cases h
    simp
  | cons entry rest ih =>
    obtain ⟨hentry, hothers⟩ := List.forall_mem_cons.mp hdescends
    obtain ⟨first, w, hhead, hrest, -⟩ := gather_cons_eq_ok hentry h
    rw [ih hothers hrest, Record.mem_names_set]
    simp [hhead, or_assoc, or_left_comm, eq_comm]

theorem distinct_gather (h : gather node entries = .ok root) (hnode : node.Distinct) :
    root.Distinct := by
  induction entries generalizing node with
  | nil =>
    cases h
    exact hnode
  | cons entry rest ih =>
    obtain ⟨hentry, hothers⟩ := List.forall_mem_cons.mp hdescends
    obtain ⟨first, w, -, hrest, -⟩ := gather_cons_eq_ok hentry h
    exact ih hothers hrest (hnode.set first w)

/-- What is gathered under a name depends on the paths through this name only. -/
theorem get?_gather {other root' : Record Value} {name : String}
    (hget : other.get? name = node.get? name) (h : gather node entries = .ok root)
    (h' : gather other (entries.filter fun entry => entry.1.head? = some name) = .ok root') :
    root.get? name = root'.get? name := by
  induction entries generalizing node other with
  | nil =>
    cases h
    cases h'
    exact hget.symm
  | cons entry rest ih =>
    obtain ⟨hentry, hothers⟩ := List.forall_mem_cons.mp hdescends
    obtain ⟨first, w, hhead, hrest, hstep⟩ := gather_cons_eq_ok hentry h
    by_cases hfirst : first = name
    · subst hfirst
      rw [List.filter_cons_of_pos (by simp [hhead]), hstep other _ hget] at h'
      apply ih hothers _ hrest h'
      rw [Record.get?_set_self, Record.get?_set_self]
    · rw [List.filter_cons_of_neg (by simp [hhead, hfirst])] at h'
      apply ih hothers _ hrest h'
      rw [hget, Record.get?_set_of_ne (Ne.symm hfirst)]

end Gather

/-! Under one name. -/

/-- The values under a name, with the rest of the paths that lead to them. -/
def below (name : String) (entries : Entries) : Entries :=
  entries.filterMap fun entry =>
    match entry.1 with
    | [] => none
    | first :: path => if first = name then some (path, entry.2) else none

section Below
variable {entries : Entries} {name : String}

theorem filter_head?_eq (name : String) (entries : Entries) :
    entries.filter (fun entry => entry.1.head? = some name) =
      (below name entries).map fun entry => (name :: entry.1, entry.2) := by
  induction entries with
  | nil => rfl
  | cons entry rest ih =>
    obtain ⟨path, v⟩ := entry
    cases path with
    | nil => simpa [below] using ih
    | cons first path =>
      by_cases h : first = name
      · simpa [below, h] using ih
      · simpa [below, h] using ih

theorem filter_below (path : Path) (name : String) (entries : Entries) :
    (below name entries).filter (fun entry => entry.1 = path) =
      below name (entries.filter fun entry => entry.1 = name :: path) := by
  induction entries with
  | nil => rfl
  | cons entry rest ih =>
    obtain ⟨names, v⟩ := entry
    cases names with
    | nil => simpa [below] using ih
    | cons first others =>
      by_cases hfirst : first = name
      · by_cases hothers : others = path
        · simpa [below, hfirst, hothers] using ih
        · simpa [below, hfirst, hothers] using ih
      · simpa [below, hfirst] using ih

theorem mem_of_mem_below {entry : Path × Value} (h : entry ∈ below name entries) :
    (name :: entry.1, entry.2) ∈ entries := by
  have hmem : (name :: entry.1, entry.2) ∈
      (below name entries).map fun entry => (name :: entry.1, entry.2) :=
    List.mem_map_of_mem h
  rw [← filter_head?_eq] at hmem
  exact List.mem_of_mem_filter hmem

theorem below_ne_nil {entry : Path × Value} (h : entry ∈ entries)
    (hhead : entry.1.head? = some name) : below name entries ≠ [] := by
  intro hnil
  have hmem : entry ∈ entries.filter fun entry => entry.1.head? = some name :=
    List.mem_filter.mpr ⟨h, decide_eq_true hhead⟩
  rw [filter_head?_eq, hnil] at hmem
  cases hmem

/-- Under a name that all its paths go on from stands the object of what is gathered there. -/
theorem get?_gather_below {root : Record Value} (hdescends : ∀ entry ∈ entries, Descends entry.1)
    (hne : below name entries ≠ []) (hbelow : ∀ entry ∈ below name entries, Descends entry.1)
    (h : gather [] entries = .ok root) :
    ∃ object, gather [] (below name entries) = .ok object ∧
      root.get? name = some (.object object) := by
  obtain ⟨object, hobject⟩ := exists_gather hbelow []
  have hunder := gather_under hne hbelow [] name
  rw [← filter_head?_eq] at hunder
  refine ⟨object, hobject, ?_⟩
  rw [get?_gather hdescends rfl h (hunder.trans (congrArg _ hobject)), Record.get?_set_self]

end Below

/-! Paths apart from each other. -/

/-- Paths none of which leads to or through the place of another. Where two of them part, they do
not go on to one position under two names. -/
structure Clear (entries : Entries) : Prop where
  descends : ∀ entry ∈ entries, Descends entry.1
  apart : ∀ entry ∈ entries, ∀ other ∈ entries, entry.1 ≠ other.1 →
    ¬ pathOf entry.1 <+: pathOf other.1
  untied : ∀ entry ∈ entries, ∀ other ∈ entries,
    ∀ names ∈ fork? (pathOf entry.1) (pathOf other.1), ¬ SameNumber names.1 names.2

/-- The same values in the same order at the end of each path. -/
def SameByPath (entries others : Entries) : Prop :=
  ∀ path, entries.filter (fun entry => entry.1 = path) = others.filter fun entry => entry.1 = path

section Clear
variable {entries others : Entries} {name : String}

theorem SameByPath.mem_iff (h : SameByPath entries others) (entry : Path × Value) :
    entry ∈ entries ↔ entry ∈ others :=
  mem_iff_of_filter_key h entry

theorem SameByPath.nil_iff (h : SameByPath entries others) : entries = [] ↔ others = [] := by
  rw [List.eq_nil_iff_forall_not_mem, List.eq_nil_iff_forall_not_mem]
  simp only [h.mem_iff]

theorem SameByPath.below (h : SameByPath entries others) (name : String) :
    SameByPath (below name entries) (below name others) := by
  intro path
  rw [filter_below, filter_below, h]

theorem Clear.congr (hclear : Clear entries) (h : SameByPath entries others) : Clear others where
  descends := fun entry he => hclear.descends entry ((h.mem_iff entry).mpr he)
  apart := fun entry he other ho =>
    hclear.apart entry ((h.mem_iff entry).mpr he) other ((h.mem_iff other).mpr ho)
  untied := fun entry he other ho =>
    hclear.untied entry ((h.mem_iff entry).mpr he) other ((h.mem_iff other).mpr ho)

theorem Clear.below (h : Clear entries) (hbelow : ∀ entry ∈ below name entries, Descends entry.1) :
    Clear (below name entries) where
  descends := hbelow
  apart := by
    intro entry he other ho hne
    have hapart := h.apart _ (mem_of_mem_below he) _ (mem_of_mem_below ho) (by simpa using hne)
    rw [pathOf_cons name (hbelow entry he).1, pathOf_cons name (hbelow other ho).1] at hapart
    simpa using hapart
  untied := by
    intro entry he other ho
    have huntied := h.untied _ (mem_of_mem_below he) _ (mem_of_mem_below ho)
    rw [pathOf_cons name (hbelow entry he).1, pathOf_cons name (hbelow other ho).1] at huntied
    simpa [fork?] using huntied

/-- A value at a name is alone there with those that have the same path. -/
theorem Clear.path_eq (h : Clear entries) {entry other : Path × Value} (he : entry ∈ entries)
    (ho : other ∈ entries) (hentry : pathOf entry.1 = [name]) (hother : other.1.head? = some name) :
    entry.1 = other.1 := by
  obtain ⟨_, rest, hhead, hpath, -⟩ := assignNames_of_descends (h.descends other ho)
  cases hhead.symm.trans hother
  by_contra hne
  apply h.apart entry he other ho hne
  rw [hentry, hpath]
  exact List.prefix_append [name] rest

/-- Where a value is at a name itself, what is gathered there is the same in any order. -/
theorem get?_gather_of_ends (hclear : Clear entries) (h : SameByPath entries others)
    {entry : Path × Value} (he : entry ∈ entries) (hends : pathOf entry.1 = [name])
    {root root' : Record Value} (hroot : gather [] entries = .ok root)
    (hroot' : gather [] others = .ok root') : root.get? name = root'.get? name := by
  have hclear' := hclear.congr h
  have hhead : entry.1.head? = some name := by
    obtain ⟨_, _, hhead, hpath, -⟩ := assignNames_of_descends (hclear.descends entry he)
    cases hpath.symm.trans hends
    exact hhead
  have hfilter {entries : Entries} (hclear : Clear entries) (he : entry ∈ entries) :
      entries.filter (fun other => other.1.head? = some name) =
        entries.filter fun other => other.1 = entry.1 := by
    apply List.filter_congr
    intro other ho
    simp only [decide_eq_decide]
    constructor
    · intro hother
      exact (hclear.path_eq he ho hends hother).symm
    · intro hother
      rw [hother, hhead]
  have hsame : entries.filter (fun other => other.1.head? = some name) =
      others.filter fun other => other.1.head? = some name := by
    rw [hfilter hclear he, hfilter hclear' ((h.mem_iff entry).mp he), h]
  have hdescends : ∀ e ∈ entries.filter (fun other => other.1.head? = some name), Descends e.1 :=
    fun e hf => hclear.descends e (List.mem_of_mem_filter hf)
  obtain ⟨alone, halone⟩ := exists_gather hdescends []
  rw [get?_gather hclear.descends rfl hroot halone,
    get?_gather hclear'.descends rfl hroot' (hsame ▸ halone)]

theorem Clear.exists_path_of_get? (h : Clear entries) {root : Record Value} {v : Value}
    (hroot : gather [] entries = .ok root) (hget : root.get? name = some v) :
    ∃ entry ∈ entries, entry.1.head? = some name := by
  have hname : name ∈ root.names := List.mem_map_of_mem (Record.mem_of_get? hget)
  exact ((mem_names_gather h.descends hroot).mp hname).resolve_left List.not_mem_nil

theorem Clear.untied_names (h : Clear entries) {root : Record Value}
    (hroot : gather [] entries = .ok root) : Untied root.names := by
  have hnames {name : String} (hname : name ∈ root.names) :
      ∃ entry ∈ entries, ∃ rest, pathOf entry.1 = name :: rest := by
    obtain ⟨entry, he, hhead⟩ :=
      ((mem_names_gather h.descends hroot).mp hname).resolve_left List.not_mem_nil
    obtain ⟨_, rest, hfirst, hpath, -⟩ := assignNames_of_descends (h.descends entry he)
    cases hfirst.symm.trans hhead
    exact ⟨entry, he, rest, hpath⟩
  refine ⟨distinct_gather h.descends hroot List.nodup_nil, ?_⟩
  intro name hname other hother hne
  obtain ⟨entry, he, rest, hpath⟩ := hnames hname
  obtain ⟨entry', he', rest', hpath'⟩ := hnames hother
  refine h.untied entry he entry' he' (name, other) ?_
  simp [hpath, hpath', fork?, hne]

theorem mem_names_of_sameByPath (hclear : Clear entries) (h : SameByPath entries others)
    {root root' : Record Value} (hroot : gather [] entries = .ok root)
    (hroot' : gather [] others = .ok root') (name : String) :
    name ∈ root.names ↔ name ∈ root'.names := by
  rw [mem_names_gather hclear.descends hroot, mem_names_gather (hclear.congr h).descends hroot']
  simp only [h.mem_iff]

end Clear

/-- Entries in another order are gathered into objects that are read alike, whatever the depth of
their paths: at each name there is either one value in both, or an object of what is below. -/
theorem alike_gather (depth : Nat) {entries others : Entries}
    (hdepth : ∀ entry ∈ entries, entry.1.length ≤ depth) (hclear : Clear entries)
    (h : SameByPath entries others) {root root' : Record Value}
    (hroot : gather [] entries = .ok root) (hroot' : gather [] others = .ok root') :
    Answer.Alike SameUpToOrder (toLists (.object root)) (toLists (.object root')) := by
  induction depth generalizing entries others root root' with
  | zero =>
    have hnil : entries = [] := by
      refine List.eq_nil_iff_forall_not_mem.mpr fun entry he => (hclear.descends entry he).1 ?_
      exact List.eq_nil_of_length_eq_zero (Nat.le_zero.mp (hdepth entry he))
    have hnil' := h.nil_iff.mp hnil
    subst hnil hnil'
    cases hroot
    cases hroot'
    exact .refl .same _
  | succ depth ih =>
    have hclear' := hclear.congr h
    refine alike_toLists_object (sameFields_of_get? ?_ ?_ ?_ ?_) (hclear.untied_names hroot)
    · exact distinct_gather hclear.descends hroot List.nodup_nil
    · exact distinct_gather hclear'.descends hroot' List.nodup_nil
    · exact mem_names_of_sameByPath hclear h hroot hroot'
    intro name v w hv hw
    -- a path that ends at the name leaves no room for one that goes on from it
    by_cases hends : ∃ entry ∈ entries, pathOf entry.1 = [name]
    · obtain ⟨entry, he, hpath⟩ := hends
      have hsame := get?_gather_of_ends hclear h he hpath hroot hroot'
      rw [hv, hw] at hsame
      cases hsame
      exact .refl .same _
    · have hbelow : ∀ entry ∈ below name entries, Descends entry.1 := by
        intro entry he
        have hmem := mem_of_mem_below he
        obtain ⟨rest, hpath, hrest⟩ := pathOf_of_descends (hclear.descends _ hmem)
        apply hrest
        rintro rfl
        exact hends ⟨_, hmem, hpath⟩
      have hsame := h.below name
      have hbelow' : ∀ entry ∈ below name others, Descends entry.1 := fun entry he =>
        hbelow entry ((hsame.mem_iff entry).mpr he)
      obtain ⟨entry, he, hhead⟩ := hclear.exists_path_of_get? hroot hv
      obtain ⟨object, hobject, hget⟩ :=
        get?_gather_below hclear.descends (below_ne_nil he hhead) hbelow hroot
      obtain ⟨object', hobject', hget'⟩ := get?_gather_below hclear'.descends
        (below_ne_nil ((h.mem_iff entry).mp he) hhead) hbelow' hroot'
      cases hv.symm.trans hget
      cases hw.symm.trans hget'
      refine ih ?_ (hclear.below hbelow) hsame hobject hobject'
      intro other ho
      have hlength := hdepth _ (mem_of_mem_below ho)
      rw [List.length_cons] at hlength
      omega

/-! Parameters. -/

/-- The path that a well-formed name under a key leads along. -/
def path? (key name : String) : Option Path := (names? key name).map pathOf

/-- A parameter in whose place something can be put, or that is not under the key. -/
def Accepted (key name : String) : Prop :=
  ∃ found, segments key name = .ok found ∧ ∀ names ∈ found, Descends names

theorem eq_spell_of_names? {key name : String} {names : Path} (h : names? key name = some names) :
    name = spell key names ∧ segments key name = .ok (some names) := by
  unfold names? at h
  split at h
  · rename_i found hfound
    subst h
    exact ⟨eq_spell_of_segments hfound, hfound⟩
  · cases h

section Collect
variable {key : String} {pairs : Pairs}

theorem accepted_of_step {found next : Option (Record Value)} {pair : String × Value}
    (h : step key found pair = .ok next) : Accepted key pair.1 := by
  obtain ⟨names, hnames, hnext⟩ := Answer.bind_eq_ok.mp h
  refine ⟨names, hnames, fun path hpath => ?_⟩
  cases hpath
  obtain ⟨node, hnode, -⟩ := Answer.bind_eq_ok.mp hnext
  by_contra hnot
  obtain ⟨failure, hfailed⟩ := assignNames_of_not_descends hnot (found.getD []) pair.2
  cases hfailed.symm.trans hnode

theorem accepted_of_foldlM {found last : Option (Record Value)}
    (h : pairs.foldlM (step key) found = .ok last) : ∀ pair ∈ pairs, Accepted key pair.1 := by
  induction pairs generalizing found with
  | nil => simp
  | cons pair rest ih =>
    rw [List.foldlM_cons] at h
    obtain ⟨next, hstep, hrest⟩ := Answer.bind_eq_ok.mp h
    rw [List.forall_mem_cons]
    exact ⟨accepted_of_step hstep, ih hrest⟩

theorem descends_of_mem_entriesUnder (h : ∀ pair ∈ pairs, Accepted key pair.1)
    {entry : Path × Value} (he : entry ∈ entriesUnder key pairs) : Descends entry.1 := by
  obtain ⟨pair, hpair, hentry⟩ := List.mem_filterMap.mp he
  obtain ⟨names, hnames, rfl⟩ := Option.map_eq_some_iff.mp hentry
  obtain ⟨found, hfound, hdescends⟩ := h pair hpair
  exact hdescends names (names?_of_segments hfound ▸ hnames)

theorem collected_of_accepted (h : ∀ pair ∈ pairs, Accepted key pair.1) :
    collected pairs key =
      if entriesUnder key pairs = [] then .ok none else some <$> gather [] (entriesUnder key pairs) :=
  foldlM_of_segments (fun pair hp => (h pair hp).imp fun _ => And.left) none

theorem collected_eq_none (h : ∀ pair ∈ pairs, Accepted key pair.1)
    (hnil : entriesUnder key pairs = []) : collected pairs key = .ok none := by
  rw [collected_of_accepted h, if_pos hnil]

theorem exists_collected_eq_some (h : ∀ pair ∈ pairs, Accepted key pair.1)
    (hne : entriesUnder key pairs ≠ []) :
    ∃ root, gather [] (entriesUnder key pairs) = .ok root ∧
      collected pairs key = .ok (some root) := by
  obtain ⟨root, hroot⟩ := exists_gather (fun _ => descends_of_mem_entriesUnder h) []
  refine ⟨root, hroot, ?_⟩
  rw [collected_of_accepted h, if_neg hne, hroot]
  rfl

theorem exists_collected_eq_error (h : ¬ ∀ pair ∈ pairs, Accepted key pair.1) :
    ∃ failure, collected pairs key = .error failure := by
  cases hcollected : collected pairs key with
  | ok found => exact absurd (accepted_of_foldlM hcollected) h
  | error failure => exact ⟨failure, rfl⟩

end Collect

/-- The parameters in another order, those with one name in the same order. -/
structure Reordered (pairs others : Pairs) : Prop where
  perm : pairs.Perm others
  stable : ∀ name,
    pairs.filter (fun pair => pair.1 = name) = others.filter fun pair => pair.1 = name

/-- No parameter under a key leads to or through the place of one with another name, and no object
has two names for one position. -/
structure Unambiguous (key : String) (pairs : Pairs) : Prop where
  apart : ∀ pair ∈ pairs, ∀ other ∈ pairs, pair.1 ≠ other.1 →
    ∀ path ∈ path? key pair.1, ∀ path' ∈ path? key other.1, ¬ path <+: path'
  untied : ∀ pair ∈ pairs, ∀ other ∈ pairs,
    ∀ path ∈ path? key pair.1, ∀ path' ∈ path? key other.1,
      ∀ names ∈ fork? path path', ¬ SameNumber names.1 names.2

section Reordered
variable {key : String} {pairs others : Pairs}

theorem reordered_iff : Reordered pairs others ↔ pairs.Perm others ∧ ∀ pair ∈ pairs,
    pairs.filter (fun p => p.1 = pair.1) = others.filter fun p => p.1 = pair.1 := by
  refine ⟨fun h => ⟨h.perm, fun pair _ => h.stable pair.1⟩, fun ⟨hperm, hnames⟩ => ⟨hperm, ?_⟩⟩
  intro name
  by_cases hname : ∃ pair ∈ pairs, pair.1 = name
  · obtain ⟨pair, hpair, rfl⟩ := hname
    exact hnames pair hpair
  · have hnil : pairs.filter (fun pair => pair.1 = name) = [] :=
      List.filter_eq_nil_iff.mpr fun pair hp => by simpa using fun he => hname ⟨pair, hp, he⟩
    have hperm' := hperm.filter fun pair => decide (pair.1 = name)
    rw [hnil] at hperm' ⊢
    exact (List.nil_perm.mp hperm').symm

instance : Decidable (Reordered pairs others) := decidable_of_iff' _ reordered_iff

instance : Decidable (Unambiguous key pairs) :=
  decidable_of_iff
    ((∀ pair ∈ pairs, ∀ other ∈ pairs, pair.1 ≠ other.1 →
        ∀ path ∈ path? key pair.1, ∀ path' ∈ path? key other.1, ¬ path <+: path') ∧
      ∀ pair ∈ pairs, ∀ other ∈ pairs,
        ∀ path ∈ path? key pair.1, ∀ path' ∈ path? key other.1,
          ∀ names ∈ fork? path path', ¬ SameNumber names.1 names.2)
    ⟨fun ⟨hapart, huntied⟩ => ⟨hapart, huntied⟩, fun h => ⟨h.apart, h.untied⟩⟩

theorem filter_entriesUnder (path : Path) (pairs : Pairs) :
    (entriesUnder key pairs).filter (fun entry => entry.1 = path) =
      (entriesUnder key (pairs.filter fun pair => pair.1 = spell key path)).filter
        fun entry => entry.1 = path := by
  induction pairs with
  | nil => rfl
  | cons pair rest ih =>
    by_cases hname : pair.1 = spell key path
    · rw [List.filter_cons_of_pos (by simpa using hname)]
      cases hnames : names? key pair.1 with
      | none => simpa [entriesUnder, hnames] using ih
      | some names =>
        by_cases hpath : names = path
        · simpa [entriesUnder, hnames, hpath] using ih
        · simpa [entriesUnder, hnames, hpath] using ih
    · rw [List.filter_cons_of_neg (by simpa using hname), ← ih]
      cases hnames : names? key pair.1 with
      | none => simp [entriesUnder, hnames]
      | some names =>
        have hpath : names ≠ path := fun he => hname (he ▸ (eq_spell_of_names? hnames).1)
        simp [entriesUnder, hnames, hpath]

theorem Reordered.sameByPath (h : Reordered pairs others) (key : String) :
    SameByPath (entriesUnder key pairs) (entriesUnder key others) := by
  intro path
  rw [filter_entriesUnder, h.stable, ← filter_entriesUnder]

theorem Unambiguous.clear (h : Unambiguous key pairs)
    (haccepted : ∀ pair ∈ pairs, Accepted key pair.1) : Clear (entriesUnder key pairs) := by
  have hpair {entry : Path × Value} (he : entry ∈ entriesUnder key pairs) :
      ∃ pair ∈ pairs, names? key pair.1 = some entry.1 ∧ pathOf entry.1 ∈ path? key pair.1 := by
    obtain ⟨pair, hpair, hentry⟩ := List.mem_filterMap.mp he
    obtain ⟨names, hnames, rfl⟩ := Option.map_eq_some_iff.mp hentry
    exact ⟨pair, hpair, hnames, by simp [path?, hnames]⟩
  refine ⟨fun entry => descends_of_mem_entriesUnder haccepted, ?_, ?_⟩
  · intro entry he other ho hne
    obtain ⟨pair, hp, hnames, hpath⟩ := hpair he
    obtain ⟨pair', hp', hnames', hpath'⟩ := hpair ho
    refine h.apart pair hp pair' hp' (fun hname => hne ?_) _ hpath _ hpath'
    rw [hname, hnames'] at hnames
    exact (Option.some.inj hnames).symm
  · intro entry he other ho
    obtain ⟨pair, hp, -, hpath⟩ := hpair he
    obtain ⟨pair', hp', -, hpath'⟩ := hpair ho
    exact h.untied pair hp pair' hp' _ hpath _ hpath'

theorem alike_collected (h : Reordered pairs others) (hclear : Unambiguous key pairs) :
    Answer.Alike (Option.Rel fun root root' =>
        Answer.Alike SameUpToOrder (toLists (.object root)) (toLists (.object root')))
      (collected pairs key) (collected others key) := by
  have hothers : (∀ pair ∈ pairs, Accepted key pair.1) ↔ ∀ pair ∈ others, Accepted key pair.1 := by
    simp only [h.perm.mem_iff]
  by_cases haccepted : ∀ pair ∈ pairs, Accepted key pair.1
  · have hsame := h.sameByPath key
    by_cases hnil : entriesUnder key pairs = []
    · rw [collected_eq_none haccepted hnil,
        collected_eq_none (hothers.mp haccepted) (hsame.nil_iff.mp hnil)]
      exact .given .none
    · obtain ⟨root, hroot, hcollected⟩ := exists_collected_eq_some haccepted hnil
      obtain ⟨root', hroot', hcollected'⟩ :=
        exists_collected_eq_some (hothers.mp haccepted) (mt hsame.nil_iff.mpr hnil)
      have hdepth : ∀ entry ∈ entriesUnder key pairs,
          entry.1.length ≤ ((entriesUnder key pairs).map (·.1)).flatten.length := fun entry he =>
        (List.sublist_flatten_of_mem (List.mem_map_of_mem he)).length_le
      rw [hcollected, hcollected']
      exact .given (.some (alike_gather _ hdepth (hclear.clear haccepted) hsame hroot hroot'))
  · obtain ⟨failure, hfailed⟩ := exists_collected_eq_error haccepted
    obtain ⟨other, hother⟩ := exists_collected_eq_error (mt hothers.mpr haccepted)
    rw [hfailed, hother]
    exact .failed failure other

/-- A failure is a failure in any order, and an object that is read is the same object up to the
order of its fields and of those inside it. -/
theorem decode_reordered (h : Reordered pairs others) (hclear : Unambiguous key pairs) :
    Answer.Alike (Option.Rel fun fields fields' => SameUpToOrder (.object fields) (.object fields'))
      (decode pairs key) (decode others key) := by
  rw [decode_eq, decode_eq]
  apply (alike_collected h hclear).bind
  intro found found' _ hfound
  cases hfound with
  | none => exact .given .none
  | some hroot =>
    apply hroot.bind
    intro v v' _ hv
    cases hv with
    | same =>
      cases v with
      | object fields => exact .given (.some (.same _))
      | _ => exact .failed _ _
    | list each => exact .failed _ _
    | object names values perm => exact .given (.some (.object names values perm))

end Reordered

/-- Two branches, the second one first, and the texts of a list apart from each other. -/
def branchesMixed : Pairs :=
  [("filters[$or][1][n]", .string "b"), ("filters[m][]", .string "x"), ("sort", .string "n"),
    ("filters[m][]", .string "y"), ("filters[$or][0][n]", .string "a")]

def branchesInOrder : Pairs :=
  [("sort", .string "n"), ("filters[m][]", .string "x"), ("filters[m][]", .string "y"),
    ("filters[$or][0][n]", .string "a"), ("filters[$or][1][n]", .string "b")]

theorem decode_reordered_branches :
    Reordered branchesMixed branchesInOrder ∧ Unambiguous "filters" branchesMixed ∧
      decode branchesMixed "filters" = .ok (some
        [("$or", .list [.object [("n", .string "a")], .object [("n", .string "b")]]),
          ("m", .list [.string "x", .string "y"])]) ∧
      decode branchesInOrder "filters" = .ok (some
        [("m", .list [.string "x", .string "y"]),
          ("$or", .list [.object [("n", .string "a")], .object [("n", .string "b")]])]) ∧
      Answer.Alike (Option.Rel fun fields fields' =>
          SameUpToOrder (.object fields) (.object fields'))
        (decode branchesMixed "filters") (decode branchesInOrder "filters") := by
  have hreordered : Reordered branchesMixed branchesInOrder := by decide +kernel
  have hclear : Unambiguous "filters" branchesMixed := by decide +kernel
  exact ⟨hreordered, hclear, by decide +kernel, by decide +kernel,
    decode_reordered hreordered hclear⟩

end DocumentApi.DeepObject
