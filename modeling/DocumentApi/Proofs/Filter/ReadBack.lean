import DocumentApi.Proofs.Filter.Spelling
import Mathlib.Data.List.Nodup

/-!
Trees read back from the parameters that spell them. The values under one name are gathered into
one field, in which lists are still objects with positions for names; from inside out these become
lists again, in the order of their positions. Main statement: `decode_of_written`.
-/

set_option autoImplicit false

namespace DocumentApi.DeepObject

/-! Gathering. -/

/-- The values at the ends of the paths, added one after the other. -/
def gather (node : Record Value) (entries : List (Path × Value)) : Answer (Record Value) :=
  entries.foldlM (fun node entry => assignNames node entry.1 entry.2) node

theorem gather_cons (node : Record Value) (entry : Path × Value) (rest : List (Path × Value)) :
    gather node (entry :: rest) =
      assignNames node entry.1 entry.2 >>= fun node => gather node rest := by
  rw [gather, List.foldlM_cons]
  rfl

theorem gather_append (node : Record Value) (entries others : List (Path × Value)) :
    gather node (entries ++ others) = gather node entries >>= fun node => gather node others := by
  rw [gather, List.foldlM_append]
  rfl

/-- The object in a field, which is empty if there is none. -/
def inner (node : Record Value) (name : String) : Record Value :=
  ((node.get? name).bind Value.object?).getD []

/-- A path that asks for more than a value or a list of values. -/
def Descends (path : Path) : Prop := path ≠ [] ∧ path ≠ [""]

theorem assignNames_cons {path : Path} (h : Descends path) (node : Record Value) (name : String)
    (v : Value) :
    assignNames node (name :: path) v =
      (fun object => node.set name (.object object)) <$> assignNames (inner node name) path v := by
  obtain ⟨segment, rest, rfl⟩ := List.exists_cons_of_ne_nil h.1
  have hlast : (name :: segment :: rest).getLast? = (segment :: rest).getLast? := by simp
  simp only [assignNames, hlast]
  by_cases hlist : (segment :: rest).getLast? = some ""
  · cases rest with
    | nil =>
      exfalso
      apply h.2
      simpa using hlist
    | cons next others =>
      simp only [hlist]
      rfl
  · simp only [hlist]
    rfl

/-- What is gathered under a name is gathered in the object of that name. -/
theorem gather_under {entries : List (Path × Value)} (hne : entries ≠ [])
    (h : ∀ entry ∈ entries, Descends entry.1) (node : Record Value) (name : String) :
    gather node (entries.map fun entry => (name :: entry.1, entry.2)) =
      (fun object => node.set name (.object object)) <$> gather (inner node name) entries := by
  induction entries generalizing node with
  | nil => exact absurd rfl hne
  | cons entry rest ih =>
    rw [List.map_cons, gather_cons, assignNames_cons (h entry List.mem_cons_self), gather_cons]
    cases hfirst : assignNames (inner node name) entry.1 entry.2 with
    | error failure => rfl
    | ok object =>
      have hinner : inner (node.set name (.object object)) name = object := by
        simp [inner, Record.get?_set_self, Value.object?]
      cases rest with
      | nil => rfl
      | cons next others =>
        have hrest := ih (List.cons_ne_nil next others)
          (fun e he => h e (List.mem_cons_of_mem entry he)) (node.set name (.object object))
        rw [hinner] at hrest
        simp only [Record.set_set_self] at hrest
        exact hrest

theorem descends_of_mem_pathsOfFields {fields : Record Value}
    (h : ∀ field ∈ fields, field.1 ≠ "") : ∀ p ∈ pathsOfFields fields, Descends p.1 := by
  apply forall_mem_pathsOfFields
  intro field hf p hp
  refine ⟨List.cons_ne_nil _ _, ?_⟩
  intro hlist
  exact h field hf (List.cons.inj hlist).1

/-! One name. -/

theorem add_of_fresh {node : Record Value} {name : String} (h : name ∉ node.names) (v : Value)
    (asList : Bool) : add node name v asList = node ++ [(name, if asList then .list [v] else v)] := by
  rw [add, Record.get?_eq_none_iff.mpr h]
  exact Record.set_of_not_mem_names h _

theorem add_to_list {node : Record Value} {name : String} (h : name ∉ node.names) (v : Value)
    (seen : List Value) (asList : Bool) :
    add (node ++ [(name, .list seen)]) name v asList = node ++ [(name, .list (seen ++ [v]))] := by
  have hget : Record.get? (node ++ [(name, Value.list seen)]) name = some (.list seen) := by
    rw [Record.get?_append_of_not_mem h]
    simp [Record.get?]
  rw [add, hget]
  dsimp only
  rw [← Record.set_of_not_mem_names h, Record.set_set_self, Record.set_of_not_mem_names h]

theorem gather_texts {node : Record Value} {name : String} (h : name ∉ node.names)
    (seen items : List Value) :
    gather (node ++ [(name, .list seen)]) (items.map fun v => ([name, ""], v)) =
      .ok (node ++ [(name, .list (seen ++ items))]) := by
  induction items generalizing seen with
  | nil =>
    rw [List.append_nil]
    rfl
  | cons v rest ih =>
    have hstep : assignNames (node ++ [(name, .list seen)]) [name, ""] v =
        .ok (node ++ [(name, .list (seen ++ [v]))]) := by
      simp [assignNames, assign, add_to_list h]
    rw [List.map_cons, gather_cons, hstep, Answer.ok_bind, ih, List.append_assoc]
    rfl

theorem toLists_of_texts {items : List Value} (h : items.all isText = true) :
    toLists (.list items) = .ok (.list items) := by
  have hitems : itemsToLists items = .ok items := by
    apply itemsToLists_eq_self
    intro v hv
    have htext := List.all_eq_true.mp h v hv
    cases v with
    | string s => rfl
    | _ => cases htext
  rw [toLists, hitems]
  rfl

/-! Fields. -/

/-- A value that is gathered from the parameters of a tree under any name, and that becomes the
tree once its positions are made into lists. -/
structure Gathers (gathered v : Value) : Prop where
  toLists : toLists gathered = .ok v
  gather : ∀ (node : Record Value) (name : String), name ≠ "" → name ∉ node.names →
    gather node ((paths v).map fun p => (name :: p.1, p.2)) = .ok (node ++ [(name, gathered)])

/-- Fields with names of their own are gathered one after the other, behind those already there. -/
theorem gather_fields {fields : Record Value} (hnames : ∀ field ∈ fields, field.1 ≠ "")
    (h : ∀ field ∈ fields, ∃ gathered, Gathers gathered field.2) (node : Record Value)
    (hd : Record.Distinct (node ++ fields)) :
    ∃ gathered, fieldsToLists gathered = .ok fields ∧
      gather node (pathsOfFields fields) = .ok (node ++ gathered) := by
  induction fields generalizing node with
  | nil =>
    refine ⟨[], rfl, ?_⟩
    rw [pathsOfFields, List.append_nil]
    rfl
  | cons field rest ih =>
    obtain ⟨name, v⟩ := field
    obtain ⟨w, hw⟩ := h (name, v) List.mem_cons_self
    have hfresh : name ∉ node.names := by
      intro hmem
      rw [Record.Distinct, Record.names, List.map_append] at hd
      exact (List.nodup_append.mp hd).2.2 name hmem name List.mem_cons_self rfl
    have hd' : Record.Distinct ((node ++ [(name, w)]) ++ rest) := by
      simpa [Record.Distinct, Record.names] using hd
    obtain ⟨gathered, hlists, hgather⟩ := ih (fun f hf => hnames f (List.mem_cons_of_mem _ hf))
      (fun f hf => h f (List.mem_cons_of_mem _ hf)) _ hd'
    refine ⟨(name, w) :: gathered, ?_, ?_⟩
    · rw [fieldsToLists, hw.toLists, hlists]
      rfl
    · rw [pathsOfFields, gather_append,
        hw.gather node name (hnames (name, v) List.mem_cons_self) hfresh, Answer.ok_bind, hgather,
        List.append_assoc]
      rfl

/-- The fields of an object gathered under a name, and the object that they make. -/
theorem gathers_of_fields {fields : Record Value} (hne : fields ≠ [])
    (hd : Record.Distinct fields) (hnames : ∀ field ∈ fields, field.1 ≠ "")
    (hpaths : ∀ field ∈ fields, paths field.2 ≠ [])
    (h : ∀ field ∈ fields, ∃ gathered, Gathers gathered field.2) {v : Value}
    (hv : paths v = pathsOfFields fields) (hindex : byIndex fields = .ok v) :
    ∃ gathered, Gathers gathered v := by
  obtain ⟨gathered, hlists, hgather⟩ := gather_fields hnames h [] hd
  refine ⟨.object gathered, ?_, ?_⟩
  · rw [toLists, hlists]
    exact hindex
  · intro node name _ hfresh
    have hinner : inner node name = [] := by
      rw [inner, Record.get?_eq_none_iff.mpr hfresh]
      rfl
    rw [hv, gather_under (pathsOfFields_ne_nil hne hpaths) (descends_of_mem_pathsOfFields hnames),
      hinner, hgather, ← Record.set_of_not_mem_names hfresh]
    rfl

/-! Positions. -/

theorem distinct_positions (items : List Value) (first : Nat) :
    Record.Distinct (positions items first) := by
  have hnames : (positions items first).names = (List.range' first items.length).map toString := by
    rw [Record.names, positions, List.map_map, ← List.zipIdx_map_snd first items, List.map_map]
    rfl
  rw [Record.Distinct, hnames]
  exact List.Nodup.map toString_injective List.nodup_range'

theorem isFigure_of_isPlainDigit {c : Char} (h : Numeral.isPlainDigit c = true) :
    Text.isFigure c = true := by
  simp only [Numeral.isPlainDigit, Bool.and_eq_true, decide_eq_true_eq] at h
  have hdigit : Text.digitValue? c = some (c.toNat - 0x30) := by
    rw [Text.digitValue?, Text.digitZeros, List.find?_cons_of_pos]
    · rfl
    · exact decide_eq_true h
  exact Text.isFigure_of_digitValue? hdigit

theorem isFigures_toString (n : Nat) : Text.isFigures (toString n).toList = true := by
  have hne : (toString n).toList ≠ [] := by
    rw [Nat.toString_eq_repr, Nat.toList_repr]
    exact Nat.toDigits_ne_nil
  have hall := List.all_eq_true.mpr (forall_mem_toString (fun _ => isFigure_of_isPlainDigit) n)
  simpa [Text.isFigures, hne] using hall

def counted (items : List Value) (first : Nat) : List (Int × Value) :=
  (items.zipIdx first).map fun item => ((item.2 : Int), item.1)

theorem mapM_index_positions {items : List Value} {first : Nat}
    (h : first + items.length ≤ 10 ^ Numeral.maxDigits) :
    (positions items first).mapM index = .ok (counted items first) := by
  induction items generalizing first with
  | nil => rfl
  | cons v rest ih =>
    rw [List.length_cons] at h
    have hindex : index (toString first, v) = .ok ((first : Int), v) := by
      rw [index, Numeral.readInt_toString (by omega)]
    rw [positions_cons, List.mapM_cons, hindex, ih (by omega), counted, counted, List.zipIdx_cons]
    rfl

theorem sortBy_counted (items : List Value) (first : Nat) :
    sortBy (fun i j : Int => decide (i ≤ j)) (·.1) (counted items first) = counted items first := by
  apply sortBy_eq_self
  rw [counted, List.pairwise_map]
  apply (pairwise_zipIdx items first).imp
  intro a b hab
  simp only [decide_eq_true_eq]
  omega

/-- An object with all positions of a list for names becomes that list, also where the order of the
positions as texts is another. -/
theorem byIndex_positions {items : List Value} (hne : items ≠ [])
    (hshort : items.length ≤ 10 ^ Numeral.maxDigits) :
    byIndex (positions items 0) = .ok (.list items) := by
  have hfigures : (positions items 0).all (fun field => Text.isFigures field.1.toList) = true := by
    rw [List.all_eq_true]
    intro field hf
    obtain ⟨n, -, -, hname, -⟩ := mem_positions hf
    rw [hname]
    exact isFigures_toString n
  have hnonempty : (positions items 0).isEmpty = false := by
    simpa [positions] using hne
  have hitems : (counted items 0).map (·.2) = items := by
    rw [counted, List.map_map]
    exact List.zipIdx_map_fst 0 items
  rw [byIndex, hfigures, hnonempty, if_pos (by decide), mapM_index_positions (by omega), Answer.ok_bind,
    sortBy_counted, hitems]
  rfl

theorem byIndex_spellable {fields : Record Value} (h : Spellable fields.names) :
    byIndex fields = .ok (.object fields) := by
  obtain ⟨name, hname, hnamed⟩ := h.named
  obtain ⟨field, hf, rfl⟩ := List.mem_map.mp hname
  have hsome : fields.all (fun field => Text.isFigures field.1.toList) = false := by
    rw [List.all_eq_false]
    exact ⟨field, hf, by simp [hnamed]⟩
  rw [byIndex, hsome, Bool.and_false, if_neg Bool.false_ne_true]

/-- Every tree is gathered from its parameters, whatever name it is spelled under. -/
theorem exists_gathers {v : Value} (h : Tree v) : ∃ gathered, Gathers gathered v := by
  induction h with
  | text s =>
    refine ⟨.string s, rfl, ?_⟩
    intro node name hne hfresh
    have hstep : assignNames node [name] (.string s) = .ok (node ++ [(name, .string s)]) := by
      simp [assignNames, assign, hne, add_of_fresh hfresh]
    rw [paths, List.map_singleton, gather_cons, hstep]
    · rfl
    all_goals simp
  | @list items nonempty short trees ih =>
    cases htexts : items.all isText with
    | true =>
      refine ⟨.list items, toLists_of_texts htexts, ?_⟩
      intro node name _ hfresh
      obtain ⟨v, rest, rfl⟩ := List.exists_cons_of_ne_nil nonempty
      have hstep : assignNames node [name, ""] v = .ok (node ++ [(name, .list [v])]) := by
        simp [assignNames, assign, add_of_fresh hfresh]
      rw [paths, htexts, if_pos rfl, List.map_map, List.map_cons, gather_cons]
      exact Answer.bind_eq_ok.mpr ⟨_, hstep, gather_texts hfresh [v] rest⟩
    | false =>
      have hne : positions items 0 ≠ [] := by simpa [positions] using nonempty
      refine gathers_of_fields hne (distinct_positions items 0) ?_ ?_ ?_ (paths_list htexts)
        (byIndex_positions nonempty (short htexts))
      · intro field hf
        obtain ⟨n, -, -, hname, -⟩ := mem_positions hf
        rw [hname]
        exact toString_ne_empty n
      · intro field hf
        obtain ⟨n, -, -, -, hmem⟩ := mem_positions hf
        exact paths_ne_nil (trees _ hmem)
      · intro field hf
        obtain ⟨n, -, -, -, hmem⟩ := mem_positions hf
        exact ih _ hmem
  | @object fields names trees ih =>
    have hpaths : paths (.object fields) = pathsOfFields fields := by rw [paths]
    exact gathers_of_fields names.ne_nil names.distinct
      (fun field hf => names.nonempty _ (List.mem_map_of_mem hf))
      (fun field hf => paths_ne_nil (trees field hf)) ih hpaths (byIndex_spellable names)

/-! Parameters. -/

/-- A parameter whose name starts with the key and a bracket. -/
def isUnder (key : String) (pair : String × Value) : Bool :=
  (key.toList ++ ['[']).isPrefixOf pair.1.toList

theorem step_of_not_isUnder {key : String} {pair : String × Value} (h : isUnder key pair = false)
    (found : Option (Record Value)) : step key found pair = .ok found := by
  have hafter : afterKey? key pair.1 = none := by
    rw [isUnder] at h
    rw [afterKey?, h, if_neg Bool.false_ne_true]
  rw [step, segments, hafter]
  rfl

theorem foldlM_filter_isUnder (key : String) (pairs : Pairs) (found : Option (Record Value)) :
    (pairs.filter (isUnder key)).foldlM (step key) found = pairs.foldlM (step key) found := by
  induction pairs generalizing found with
  | nil => rfl
  | cons pair rest ih =>
    cases h : isUnder key pair with
    | true =>
      rw [List.filter_cons_of_pos h, List.foldlM_cons, List.foldlM_cons]
      apply bind_congr
      exact ih
    | false =>
      rw [List.filter_cons_of_neg (by simp [h]), List.foldlM_cons, step_of_not_isUnder h,
        Answer.ok_bind, ih]

/-- The names in brackets of a well-formed name under a key. -/
def names? (key name : String) : Option Path :=
  match segments key name with
  | .ok found => found
  | .error _ => none

/-- The values under a key, with the names that lead to them. -/
def entriesUnder (key : String) (pairs : Pairs) : List (Path × Value) :=
  pairs.filterMap fun pair => (names? key pair.1).map fun names => (names, pair.2)

theorem names?_of_segments {key name : String} {found : Option Path}
    (h : segments key name = .ok found) : names? key name = found := by
  rw [names?, h]

/-- Where all names are well formed, the values under the key are gathered one after the other. -/
theorem foldlM_of_segments {key : String} {pairs : Pairs}
    (h : ∀ pair ∈ pairs, ∃ names, segments key pair.1 = .ok names) (found : Option (Record Value)) :
    pairs.foldlM (step key) found =
      if entriesUnder key pairs = [] then .ok found
      else some <$> gather (found.getD []) (entriesUnder key pairs) := by
  induction pairs generalizing found with
  | nil => rfl
  | cons pair rest ih =>
    obtain ⟨names, hsegments⟩ := h pair List.mem_cons_self
    have hrest := ih fun p hp => h p (List.mem_cons_of_mem pair hp)
    rw [List.foldlM_cons, step, hsegments, Answer.ok_bind, entriesUnder, List.filterMap_cons,
      names?_of_segments hsegments]
    cases names with
    | none => exact hrest found
    | some names =>
      rw [Option.map_some, if_neg (List.cons_ne_nil _ _), gather_cons]
      dsimp only
      cases assignNames (found.getD []) names pair.2 with
      | error failure => rfl
      | ok node =>
        refine (hrest (some node)).trans ?_
        split
        · rename_i hnil
          rw [entriesUnder] at hnil
          rw [hnil]
          rfl
        · rfl

theorem foldlM_spelled {key : String} {entries : List (Path × Value)} (hne : entries ≠ [])
    (h : ∀ entry ∈ entries, entry.1 ≠ [] ∧ ∀ s ∈ entry.1, IsBare s)
    (found : Option (Record Value)) :
    (entries.map fun entry => (spell key entry.1, entry.2)).foldlM (step key) found =
      some <$> gather (found.getD []) entries := by
  have hsegments : ∀ entry ∈ entries, segments key (spell key entry.1) = .ok (some entry.1) :=
    fun entry he => segments_spell (h entry he).1 (h entry he).2 key
  have hentries : entriesUnder key (entries.map fun entry => (spell key entry.1, entry.2)) =
      entries := by
    rw [entriesUnder, List.filterMap_map]
    refine (List.filterMap_congr fun entry he => ?_).trans List.filterMap_some
    simp [names?_of_segments (hsegments entry he)]
  rw [foldlM_of_segments, hentries, if_neg hne]
  intro pair hpair
  obtain ⟨entry, he, rfl⟩ := List.mem_map.mp hpair
  exact ⟨_, hsegments entry he⟩

/-- The parameters that spell an object under a key are read back as this object, whatever
parameters that are not under the key stand between them. -/
theorem decode_of_written {key : String} {fields : Record Value} {pairs : Pairs}
    (h : Tree (.object fields))
    (hpairs : pairs.filter (isUnder key) = write key (.object fields)) :
    decode pairs key = .ok (some fields) := by
  cases h with
  | object names trees =>
    have hnames : ∀ field ∈ fields, field.1 ≠ "" := fun field hf =>
      names.nonempty _ (List.mem_map_of_mem hf)
    have hpaths : paths (.object fields) = pathsOfFields fields := by rw [paths]
    have hne : pathsOfFields fields ≠ [] :=
      pathsOfFields_ne_nil names.ne_nil fun field hf => paths_ne_nil (trees field hf)
    have hbare : ∀ entry ∈ pathsOfFields fields, entry.1 ≠ [] ∧ ∀ s ∈ entry.1, IsBare s := by
      intro entry he
      refine ⟨(descends_of_mem_pathsOfFields hnames entry he).1, ?_⟩
      exact isBare_of_mem_paths (.object names trees) entry (hpaths ▸ he)
    obtain ⟨gathered, hlists, hgather⟩ := gather_fields hnames
      (fun field hf => exists_gathers (trees field hf)) [] names.distinct
    have hroot : pairs.foldlM (step key) none = .ok (some gathered) := by
      rw [← foldlM_filter_isUnder, hpairs, write_eq, hpaths, foldlM_spelled hne hbare]
      exact congrArg (some <$> ·) hgather
    have hread : toLists (.object gathered) = .ok (.object fields) := by
      rw [toLists, hlists]
      exact byIndex_spellable names
    rw [decode, hroot, Answer.ok_bind]
    dsimp only
    rw [hread]
    rfl

/-- Eleven branches, so that the last position comes before the third one as a text. -/
def branches : List Value :=
  (List.range 11).map fun n => .object [("n", .object [("$eq", .string (toString n))])]

def branching : Record Value :=
  [("$or", .list branches), ("1", .list [.string "a", .list [.string "]", .string "["]]),
    ("b c", .object [("$in", .list [.string "", .string "="])])]

/-- The parameters of the object with others around them, one of which has the key for a name. -/
def surrounded : Pairs :=
  let pairs := write "filters" (.object branching)
  ("sort", .string "n") :: pairs.take 3 ++ ("filters", .string "x") :: pairs.drop 3
    ++ [("filters2[n]", .string "y")]

theorem tree_branching : Tree (.object branching) := by
  have hshort {items : List Value} (h : items.length ≤ 11)
      (_ : items.all isText = false) : items.length ≤ 10 ^ Numeral.maxDigits :=
    h.trans (by decide +kernel)
  have hbranches : Tree (.list branches) := by
    refine .list (by decide) (hshort (by decide)) ?_
    intro v hv
    obtain ⟨n, -, rfl⟩ := List.mem_map.mp hv
    exact .field (by decide) (.field (by decide) (.text _))
  have htexts (s t : String) : Tree (.list [.string s, .string t]) := by
    refine .list (List.cons_ne_nil _ _) (hshort (by simp)) ?_
    simp [Tree.text]
  have hmixed : Tree (.list [.string "a", .list [.string "]", .string "["]]) := by
    refine .list (List.cons_ne_nil _ _) (hshort (by simp)) ?_
    simp [Tree.text, htexts]
  have hin : Tree (.object [("$in", .list [.string "", .string "="])]) :=
    .field (by decide) (htexts "" "=")
  refine .object (by decide) ?_
  simp [branching, hbranches, hmixed, hin]

theorem decode_of_written_surrounded :
    Tree (.object branching) ∧
    surrounded.filter (isUnder "filters") = write "filters" (.object branching) ∧
    decode surrounded "filters" = .ok (some branching) := by
  have hpairs : surrounded.filter (isUnder "filters") = write "filters" (.object branching) := by
    decide +kernel
  exact ⟨tree_branching, hpairs, decode_of_written tree_branching hpairs⟩

end DocumentApi.DeepObject
