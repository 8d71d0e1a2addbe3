import DocumentApi.Filter.DeepObject
import DocumentApi.Proofs.Number.Decimal

/-!
Trees spelled as parameters: a text is one parameter, the fields of an object are spelled under
their names in brackets, the items of a list under their positions, and texts in a list all under
an empty name. Each parameter of a tree is a value at the end of a path of names. Main statements:
`write_eq`, that the names of the parameters spell the paths, and `segments_spell`, that the paths
are read back from the names.
-/

set_option autoImplicit false

namespace DocumentApi.DeepObject

def IsBare (segment : String) : Prop := '[' ∉ segment.toList ∧ ']' ∉ segment.toList

instance (segment : String) : Decidable (IsBare segment) := inferInstanceAs (Decidable (_ ∧ _))

/-- Names that can be spelled in brackets and that do not all stand for positions. -/
structure Spellable (names : List String) : Prop where
  distinct : names.Nodup
  nonempty : ∀ name ∈ names, name ≠ ""
  bare : ∀ name ∈ names, IsBare name
  named : ∃ name ∈ names, Text.isFigures name.toList = false

instance (names : List String) : Decidable (Spellable names) :=
  decidable_of_iff (names.Nodup ∧ (∀ name ∈ names, name ≠ "") ∧ (∀ name ∈ names, IsBare name) ∧
    ∃ name ∈ names, Text.isFigures name.toList = false)
    ⟨fun ⟨hd, hn, hb, hf⟩ => ⟨hd, hn, hb, hf⟩, fun h => ⟨h.distinct, h.nonempty, h.bare, h.named⟩⟩

def isText (v : Value) : Bool := v.string?.isSome

/-- What can be spelled as parameters. A list that is spelled by positions has no more items than
there are positions that can be read, which is all that memory can hold and more. -/
inductive Tree : Value → Prop where
  | text (s : String) : Tree (.string s)
  | list {items : List Value} (nonempty : items ≠ [])
      (short : items.all isText = false → items.length ≤ 10 ^ Numeral.maxDigits)
      (trees : ∀ v ∈ items, Tree v) : Tree (.list items)
  | object {fields : Record Value} (names : Spellable fields.names)
      (trees : ∀ field ∈ fields, Tree field.2) : Tree (.object fields)

theorem Tree.field {name : String} {v : Value} (hname : Spellable [name]) (h : Tree v) :
    Tree (.object [(name, v)]) := by
  have htree : ∀ field ∈ [(name, v)], Tree field.2 := by
    intro field hf
    obtain rfl := List.mem_singleton.mp hf
    exact h
  exact .object hname htree

def inBrackets (name segment : String) : String := name ++ "[" ++ segment ++ "]"

mutual

/-- The parameters that spell a value under a name. -/
def write (name : String) : Value → Pairs
  | .list items =>
    if items.all isText then items.map fun v => (inBrackets name "", v)
    else writeItems name 0 items
  | .object fields => writeFields name fields
  | v => [(name, v)]

def writeItems (name : String) (position : Nat) : List Value → Pairs
  | [] => []
  | v :: rest =>
    write (inBrackets name (toString position)) v ++ writeItems name (position + 1) rest

def writeFields (name : String) : List (String × Value) → Pairs
  | [] => []
  | (key, v) :: rest => write (inBrackets name key) v ++ writeFields name rest

end

/-! Paths. -/

abbrev Path := List String

mutual

/-- The values in a tree that are spelled as a parameter each, with the names that lead to them. -/
def paths : Value → List (Path × Value)
  | .list items => if items.all isText then items.map fun v => ([""], v) else pathsOfItems 0 items
  | .object fields => pathsOfFields fields
  | v => [([], v)]

def pathsOfItems (position : Nat) : List Value → List (Path × Value)
  | [] => []
  | v :: rest =>
    (paths v).map (fun p => (toString position :: p.1, p.2)) ++ pathsOfItems (position + 1) rest

def pathsOfFields : List (String × Value) → List (Path × Value)
  | [] => []
  | (key, v) :: rest => (paths v).map (fun p => (key :: p.1, p.2)) ++ pathsOfFields rest

end

def spell (key : String) (path : Path) : String := path.foldl inBrackets key

theorem spell_cons (key segment : String) (path : Path) :
    spell key (segment :: path) = spell (inBrackets key segment) path := rfl

mutual

theorem write_eq : ∀ (name : String) (v : Value),
    write name v = (paths v).map fun p => (spell name p.1, p.2)
  | name, .list items => by
    rw [write, paths]
    split
    · rw [List.map_map]
      rfl
    · exact writeItems_eq name 0 items
  | name, .object fields => by
    rw [write, paths]
    exact writeFields_eq name fields
  | _, .null | _, .bool _ | _, .int _ | _, .float _ | _, .string _ | _, .objectId _ | _, .regex _ => by
    simp [write, paths, spell]

theorem writeItems_eq : ∀ (name : String) (position : Nat) (items : List Value),
    writeItems name position items =
      (pathsOfItems position items).map fun p => (spell name p.1, p.2)
  | _, _, [] => by simp [writeItems, pathsOfItems]
  | name, position, v :: rest => by
    rw [writeItems, pathsOfItems, write_eq, writeItems_eq name (position + 1) rest, List.map_append,
      List.map_map]
    rfl

theorem writeFields_eq : ∀ (name : String) (fields : List (String × Value)),
    writeFields name fields = (pathsOfFields fields).map fun p => (spell name p.1, p.2)
  | _, [] => by simp [writeFields, pathsOfFields]
  | name, (key, v) :: rest => by
    rw [writeFields, pathsOfFields, write_eq, writeFields_eq name rest, List.map_append,
      List.map_map]
    rfl

end

/-- A list of which not all items are texts is spelled as an object with its positions for names. -/
def positions (items : List Value) (first : Nat) : Record Value :=
  (items.zipIdx first).map fun item => (toString item.2, item.1)

theorem positions_cons (v : Value) (rest : List Value) (first : Nat) :
    positions (v :: rest) first = (toString first, v) :: positions rest (first + 1) := by
  rw [positions, positions, List.zipIdx_cons, List.map_cons]

theorem pathsOfItems_eq (items : List Value) (first : Nat) :
    pathsOfItems first items = pathsOfFields (positions items first) := by
  induction items generalizing first with
  | nil => simp [pathsOfItems, positions, pathsOfFields]
  | cons v rest ih => rw [pathsOfItems, ih (first + 1), positions_cons, pathsOfFields]

theorem paths_list {items : List Value} (h : items.all isText = false) :
    paths (.list items) = pathsOfFields (positions items 0) := by
  rw [paths, h, if_neg Bool.false_ne_true, pathsOfItems_eq]

theorem mem_positions {items : List Value} {first : Nat} {field : String × Value}
    (h : field ∈ positions items first) :
    ∃ n, first ≤ n ∧ n < first + items.length ∧ field.1 = toString n ∧ field.2 ∈ items := by
  obtain ⟨⟨v, n⟩, hitem, rfl⟩ := List.mem_map.mp h
  refine ⟨n, List.le_snd_of_mem_zipIdx hitem, ?_, rfl, List.fst_mem_of_mem_zipIdx hitem⟩
  have hlt := List.snd_lt_add_of_mem_zipIdx hitem
  omega

theorem forall_mem_toString {p : Char → Prop} (h : ∀ c, Numeral.isPlainDigit c = true → p c) (n : Nat) :
    ∀ c ∈ (toString n).toList, p c := by
  intro c hc
  rw [Nat.toString_eq_repr, Nat.toList_repr] at hc
  exact h c (Numeral.isPlainDigit_of_mem_toDigits hc)

theorem toString_ne_empty (n : Nat) : toString n ≠ "" := by
  intro h
  have hlist := congrArg String.toList h
  rw [Nat.toString_eq_repr, Nat.toList_repr] at hlist
  exact Nat.toDigits_ne_nil hlist

theorem toString_injective : Function.Injective (toString : Nat → String) := by
  intro n m h
  have hdigits := congrArg String.toList h
  rw [Nat.toString_eq_repr, Nat.toString_eq_repr, Nat.toList_repr, Nat.toList_repr] at hdigits
  rw [← Nat.ofDigitChars_ten_toDigits (n := n), hdigits, Nat.ofDigitChars_ten_toDigits]

/-! Names of parameters. -/

theorem isBare_toString (n : Nat) : IsBare (toString n) := by
  constructor
  · intro h
    exact absurd (forall_mem_toString (p := (· ≠ '[')) (by rintro c hc rfl; cases hc) n _ h) (by simp)
  · intro h
    exact absurd (forall_mem_toString (p := (· ≠ ']')) (by rintro c hc rfl; cases hc) n _ h) (by simp)

theorem toList_spell (key : String) (path : Path) :
    (spell key path).toList = key.toList ++ path.flatMap fun s => '[' :: (s.toList ++ [']']) := by
  induction path generalizing key with
  | nil => simp [spell]
  | cons segment rest ih => simp [spell_cons, ih, inBrackets]

theorem segmentsFrom?_inside {segment : List Char} (hopen : '[' ∉ segment) (hclose : ']' ∉ segment)
    (seen rest : List Char) :
    segmentsFrom? (some seen) (segment ++ ']' :: rest) =
      (segmentsFrom? none rest).map (String.ofList (seen.reverse ++ segment) :: ·) := by
  induction segment generalizing seen with
  | nil => simp [segmentsFrom?]
  | cons c cs ih =>
    have ho : c ≠ '[' := fun he => hopen (he ▸ List.mem_cons_self)
    have hc : c ≠ ']' := fun he => hclose (he ▸ List.mem_cons_self)
    have hrest := ih (fun hm => hopen (List.mem_cons_of_mem c hm))
      (fun hm => hclose (List.mem_cons_of_mem c hm)) (c :: seen)
    simp [segmentsFrom?, ho, hc, hrest]

theorem segmentsFrom?_path {path : Path} (h : ∀ s ∈ path, IsBare s) :
    segmentsFrom? none (path.flatMap fun s => '[' :: (s.toList ++ [']'])) = some path := by
  induction path with
  | nil => rfl
  | cons segment rest ih =>
    obtain ⟨hopen, hclose⟩ := h segment List.mem_cons_self
    have hinside := segmentsFrom?_inside hopen hclose []
      (rest.flatMap fun s => '[' :: (s.toList ++ [']']))
    rw [ih fun s hs => h s (List.mem_cons_of_mem segment hs)] at hinside
    simpa [segmentsFrom?] using hinside

/-- A path of names is read back from the name of a parameter that spells it. -/
theorem segments_spell {path : Path} (hne : path ≠ []) (h : ∀ s ∈ path, IsBare s) (key : String) :
    segments key (spell key path) = .ok (some path) := by
  obtain ⟨segment, rest, rfl⟩ := List.exists_cons_of_ne_nil hne
  have hafter : afterKey? key (spell key (segment :: rest)) =
      some ((segment :: rest).flatMap fun s => '[' :: (s.toList ++ [']'])) := by
    rw [afterKey?, toList_spell]
    simp [List.flatMap_cons]
  rw [segments, hafter]
  dsimp only
  rw [segmentsFrom?_path h]

/-- What is read of a text that starts inside a name, or between two names. -/
theorem segmentsFrom?_eq_some {inside : Option (List Char)} {cs : List Char} {path : Path}
    (h : segmentsFrom? inside cs = some path) :
    let after (path : Path) := path.flatMap fun s => '[' :: (s.toList ++ [']'])
    match inside with
    | none => cs = after path
    | some seen => ∃ segment rest, path = segment :: rest ∧
        seen.reverse ++ cs = segment.toList ++ ']' :: after rest := by
  intro after
  induction cs generalizing inside path with
  | nil =>
    cases inside with
    | none =>
      cases h
      rfl
    | some seen => cases h
  | cons c rest ih =>
    cases inside with
    | none =>
      by_cases hopen : c = '['
      · simp only [segmentsFrom?, hopen, if_true] at h
        obtain ⟨segment, others, rfl, hrest⟩ := ih h
        have hrest : rest = segment.toList ++ ']' :: after others := hrest
        simp [after, hopen, hrest]
      · simp [segmentsFrom?, hopen] at h
    | some seen =>
      by_cases hclose : c = ']'
      · simp only [segmentsFrom?, hclose, if_true, Option.map_eq_some_iff] at h
        obtain ⟨others, hothers, rfl⟩ := h
        have hrest : rest = after others := ih hothers
        exact ⟨_, others, rfl, by simp [hclose, hrest]⟩
      · by_cases hopen : c = '['
        · simp [segmentsFrom?, hopen] at h
        · simp only [segmentsFrom?, hclose, hopen, if_false] at h
          obtain ⟨segment, others, hpath, hrest⟩ := ih h
          exact ⟨segment, others, hpath, by simpa using hrest⟩

/-- Only the name that spells a path is read as that path. -/
theorem eq_spell_of_segments {key name : String} {path : Path}
    (h : segments key name = .ok (some path)) : name = spell key path := by
  unfold segments at h
  split at h
  · cases h
  · rename_i rest hafter
    split at h
    · rename_i names hnames
      cases h
      unfold afterKey? at hafter
      split at hafter
      · rename_i hprefix
        cases hafter
        have hkey : key.toList <+: name.toList :=
          (List.prefix_append _ _).trans (List.isPrefixOf_iff_prefix.mp hprefix)
        have hrest := segmentsFrom?_eq_some hnames
        dsimp only at hrest
        apply String.toList_injective
        rw [toList_spell, ← hrest]
        exact (List.prefix_iff_eq_append.mp hkey).symm
      · cases hafter
    · cases h

/-! What the paths of a tree are like. -/

theorem forall_mem_pathsOfFields {P : Path × Value → Prop} {fields : Record Value}
    (h : ∀ field ∈ fields, ∀ p ∈ paths field.2, P (field.1 :: p.1, p.2)) :
    ∀ p ∈ pathsOfFields fields, P p := by
  induction fields with
  | nil =>
    intro p hp
    simp [pathsOfFields] at hp
  | cons field rest ih =>
    intro p hp
    rw [pathsOfFields, List.mem_append] at hp
    rcases hp with hp | hp
    · obtain ⟨q, hq, rfl⟩ := List.mem_map.mp hp
      exact h field List.mem_cons_self q hq
    · exact ih (fun f hf => h f (List.mem_cons_of_mem field hf)) p hp

theorem pathsOfFields_ne_nil {fields : Record Value} (hne : fields ≠ [])
    (h : ∀ field ∈ fields, paths field.2 ≠ []) : pathsOfFields fields ≠ [] := by
  obtain ⟨field, rest, rfl⟩ := List.exists_cons_of_ne_nil hne
  rw [pathsOfFields]
  intro hnil
  exact h field List.mem_cons_self (List.map_eq_nil_iff.mp (List.append_eq_nil_iff.mp hnil).1)

theorem Spellable.ne_nil {fields : Record Value} (h : Spellable fields.names) : fields ≠ [] := by
  rintro rfl
  obtain ⟨name, hname, -⟩ := h.named
  exact List.not_mem_nil hname

theorem paths_ne_nil {v : Value} (h : Tree v) : paths v ≠ [] := by
  induction h with
  | text s => simp [paths]
  | @list items nonempty short trees ih =>
    cases htexts : items.all isText with
    | true => simpa [paths, htexts] using nonempty
    | false =>
      rw [paths_list htexts]
      apply pathsOfFields_ne_nil
      · simpa [positions] using nonempty
      · intro field hf
        obtain ⟨n, -, -, -, hmem⟩ := mem_positions hf
        exact ih _ hmem
  | object names trees ih =>
    rw [paths]
    exact pathsOfFields_ne_nil names.ne_nil ih

theorem isBare_of_mem_paths {v : Value} (h : Tree v) : ∀ p ∈ paths v, ∀ s ∈ p.1, IsBare s := by
  induction h with
  | text s => simp [paths]
  | @list items nonempty short trees ih =>
    cases htexts : items.all isText with
    | true => simp [paths, htexts, IsBare]
    | false =>
      rw [paths_list htexts]
      apply forall_mem_pathsOfFields
      intro field hf p hp
      obtain ⟨n, -, -, hname, hmem⟩ := mem_positions hf
      rw [List.forall_mem_cons, hname]
      exact ⟨isBare_toString n, ih _ hmem p hp⟩
  | @object fields names trees ih =>
    rw [paths]
    apply forall_mem_pathsOfFields
    intro field hf p hp
    rw [List.forall_mem_cons]
    exact ⟨names.bare _ (List.mem_map_of_mem hf), ih field hf p hp⟩

end DocumentApi.DeepObject
