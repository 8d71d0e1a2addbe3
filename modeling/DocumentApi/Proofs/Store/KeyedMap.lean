import DocumentApi.Proofs.Store.ReadBack

/-!
Documents under generated identifiers, seen as a map from keys to records: the key of a document is
its identifier in base sixteen, and its record is the rest of it. What a collection makes of the
documents is a step of the map (`mapUpdate_of_updates`, `entries_of_inserts`, `entries_of_deletes`),
and so is each call of the store for one document: `findById_keyed`, `insert_keyed`,
`updateById_keyed` and `deleteById_keyed`.
-/

set_option autoImplicit false

namespace DocumentApi.Collection

/-- What an identifier in a request is looked up by. -/
def soughtId (id : String) : Value := (ObjectId.ofHex? id).elim (.string id) .objectId

/-- The key that an identifier in a request stands for: that of an object identifier is written in
lower case, any other is the identifier itself. -/
def keyOf (id : String) : String :=
  if (ObjectId.ofHex? id).isSome then Text.lowered id else id

def entry (document : Document) : String × Record Value := (idText document, document.erase "_id")

def entries (documents : List Document) : Record Document := documents.map entry

/-- A document shows a record under a key: they differ in nothing but the identifier. -/
structure Shows (document : Document) (key : String) (fields : Record Value) : Prop where
  id : document.get? "_id" = some (.string key)
  fields : document.erase "_id" = fields

/-- Documents under generated identifiers, no two under one. -/
structure Keyed (documents : List Document) : Prop where
  distinct : (ids documents).Nodup
  generated : ∀ id ∈ ids documents, ∃ own, id = some (.objectId own)

theorem keyed_nil : Keyed [] := ⟨List.nodup_nil, fun _ h => absurd h List.not_mem_nil⟩

theorem isKey_soughtId (id : String) : IsKey (soughtId id) := by
  unfold soughtId
  cases ObjectId.ofHex? id <;> trivial

theorem soughtId_text (own : ObjectId) : soughtId own.text = .objectId own := by
  rw [soughtId, ObjectId.ofHex?_text]
  rfl

theorem keyOf_text (own : ObjectId) : keyOf own.text = own.text := by
  have hread := ObjectId.ofHex?_text own
  rw [keyOf, hread]
  exact ObjectId.lowered_of_ofHex? hread

theorem fst_entry {document : Document} {own : ObjectId}
    (h : document.get? "_id" = some (.objectId own)) : (entry document).1 = own.text := by
  simp [entry, idText, h, Value.text]

theorem shows_shownDocument {document : Document} {own : ObjectId}
    (h : document.get? "_id" = some (.objectId own)) :
    Shows (IdCodec.shownDocument document) (entry document).1 (entry document).2 := by
  have hshown : IdCodec.shownDocument document = document.set "_id" (.string own.text) := by
    simp [IdCodec.shownDocument, h]
  rw [hshown, fst_entry h]
  exact ⟨Record.get?_set_self _ _ _, Record.erase_set_self _ _ _⟩

/-- The document of a key is the one that is looked up for it. -/
theorem fst_entry_eq_keyOf_iff {document : Document} {own : ObjectId}
    (h : document.get? "_id" = some (.objectId own)) (id : String) :
    (entry document).1 = keyOf id ↔ document.get? "_id" = some (soughtId id) := by
  rw [fst_entry h, h, keyOf, soughtId]
  cases hhex : ObjectId.ofHex? id with
  | some found =>
    simp only [Option.isSome_some, if_true, ObjectId.lowered_of_ofHex? hhex, Option.elim_some,
      Option.some.injEq, Value.objectId.injEq]
    exact ⟨ObjectId.text_injective, congrArg ObjectId.text⟩
  | none =>
    simp only [Option.isSome_none, Bool.false_eq_true, if_false, Option.elim_none,
      Option.some.injEq, reduceCtorEq, iff_false]
    rintro rfl
    simp [ObjectId.ofHex?_text] at hhex

namespace Keyed

variable {documents : List Document}

theorem objectId (h : Keyed documents) {document : Document} (hd : document ∈ documents) :
    ∃ own, document.get? "_id" = some (.objectId own) :=
  h.generated _ (List.mem_map_of_mem hd)

theorem distinct_entries (h : Keyed documents) : (entries documents).Distinct := by
  have hnames : (entries documents).names = documents.map idText := by
    rw [Record.names, entries, List.map_map]
    rfl
  rw [Record.Distinct, hnames, List.Nodup, List.pairwise_map]
  have hapart := h.distinct
  rw [ids, List.Nodup, List.pairwise_map] at hapart
  refine hapart.imp_of_mem ?_
  intro a b ha hb hne halike
  obtain ⟨own, hown⟩ := h.objectId ha
  obtain ⟨other, hother⟩ := h.objectId hb
  have hsame : own.text = other.text := (fst_entry hown).symm.trans (halike.trans (fst_entry hother))
  exact hne (by rw [hown, hother, ObjectId.text_injective hsame])

/-- A document is found for a key exactly if the map has the key. -/
theorem rel_of_finds (h : Keyed documents) {id : String} {found : Option Document}
    (hfinds : Finds (soughtId id) documents found) :
    Option.Rel (fun document record =>
      document ∈ documents ∧ entry document = (keyOf id, record)) found
      ((entries documents).get? (keyOf id)) := by
  cases found with
  | none =>
    have hnone : (entries documents).get? (keyOf id) = none := by
      refine Record.get?_eq_none_iff.mpr fun hmem => ?_
      obtain ⟨pair, hpair, hkey⟩ := List.mem_map.mp hmem
      obtain ⟨document, hd, rfl⟩ := List.mem_map.mp hpair
      obtain ⟨own, hown⟩ := h.objectId hd
      exact hfinds ((fst_entry_eq_keyOf_iff hown id).mp hkey ▸ List.mem_map_of_mem hd)
    rw [hnone]
    exact .none
  | some document =>
    obtain ⟨hd, hid⟩ := hfinds
    obtain ⟨own, hown⟩ := h.objectId hd
    have hkey := (fst_entry_eq_keyOf_iff hown id).mpr hid
    have hget := h.distinct_entries.get?_of_mem (List.mem_map_of_mem (f := entry) hd)
    rw [← hkey, hget]
    exact .some ⟨hd, rfl⟩

theorem get?_eq_none_iff (h : Keyed documents) (id : String) :
    (entries documents).get? (keyOf id) = none ↔ some (soughtId id) ∉ ids documents := by
  constructor
  · intro hnone hmem
    obtain ⟨document, hd, hid⟩ := List.mem_map.mp hmem
    have hfinds : Finds (soughtId id) documents (some document) := ⟨hd, hid⟩
    have hrel := h.rel_of_finds hfinds
    rw [hnone] at hrel
    cases hrel
  · intro hmem
    have hfinds : Finds (soughtId id) documents none := hmem
    have hrel := h.rel_of_finds hfinds
    generalize (entries documents).get? (keyOf id) = sought at hrel
    cases hrel
    rfl

/-- The map around the document that is looked up for a key. -/
theorem entries_split {front back : List Document} {document : Document}
    (h : Keyed (front ++ document :: back)) {id : String}
    (hid : document.get? "_id" = some (soughtId id)) :
    entries (front ++ document :: back) =
        entries front ++ (keyOf id, document.erase "_id") :: entries back ∧
      keyOf id ∉ (entries front).names ∧ keyOf id ∉ (entries back).names ∧
      (entries (front ++ document :: back)).get? (keyOf id) = some (document.erase "_id") := by
  obtain ⟨own, hown⟩ := h.objectId (List.mem_append_right front List.mem_cons_self)
  have hentry : entry document = (keyOf id, document.erase "_id") :=
    Prod.ext ((fst_entry_eq_keyOf_iff hown id).mpr hid) rfl
  have hsplit : entries (front ++ document :: back) =
      entries front ++ (keyOf id, document.erase "_id") :: entries back := by
    rw [entries, List.map_append, List.map_cons, hentry]
    rfl
  have hdistinct := h.distinct_entries
  rw [hsplit, Record.Distinct, Record.names, List.map_append, List.map_cons,
    List.nodup_append, List.nodup_cons] at hdistinct
  obtain ⟨-, ⟨hback, -⟩, hfront⟩ := hdistinct
  have hnotFront : keyOf id ∉ (entries front).names := fun hmem =>
    hfront _ hmem _ List.mem_cons_self rfl
  refine ⟨hsplit, hnotFront, hback, ?_⟩
  rw [hsplit, Record.get?_append_of_not_mem hnotFront]
  exact if_pos rfl

end Keyed

/-! Steps of the map. -/

/-- What an update makes of a map, and what it tells of it. -/
inductive MapUpdate (m : Record Document) (key : String) (changes : Record Value)
    (result : UpdateResult) : Record Document → Prop where
  | absent (h : m.get? key = none) (hmatched : result.matched = 0) :
    MapUpdate m key changes result m
  | unchanged (record : Record Value) (h : m.get? key = some record)
      (hsame : ∀ field ∈ changes, record.get? field.1 = some field.2)
      (hmatched : result.matched ≠ 0) (hmodified : result.modified = 0) :
    MapUpdate m key changes result m
  | changed (record merged : Record Value) (h : m.get? key = some record)
      (hdiffers : ∃ field ∈ changes, record.get? field.1 ≠ some field.2)
      (hmerged : Merges changes record merged)
      (hmatched : result.matched ≠ 0) (hmodified : result.modified ≠ 0) :
    MapUpdate m key changes result (m.set key merged)

namespace MapUpdate

variable {m next : Record Document} {key : String} {changes : Record Value} {result : UpdateResult}

theorem of_not_matched (h : MapUpdate m key changes result next) (hmatched : result.matched = 0) :
    m.get? key = none ∧ next = m := by
  cases h with
  | absent hget _ => exact ⟨hget, rfl⟩
  | unchanged _ _ _ hne _ => exact absurd hmatched hne
  | changed _ _ _ _ _ hne _ => exact absurd hmatched hne

theorem of_not_modified (h : MapUpdate m key changes result next) (hmatched : result.matched ≠ 0)
    (hmodified : result.modified = 0) :
    ∃ record, m.get? key = some record ∧
      (∀ field ∈ changes, record.get? field.1 = some field.2) ∧ next = m := by
  cases h with
  | absent _ hz => exact absurd hz hmatched
  | unchanged record hget hsame _ _ => exact ⟨record, hget, hsame, rfl⟩
  | changed _ _ _ _ _ _ hne => exact absurd hmodified hne

theorem of_modified (h : MapUpdate m key changes result next) (hmatched : result.matched ≠ 0)
    (hmodified : result.modified ≠ 0) :
    ∃ record merged, m.get? key = some record ∧
      (∃ field ∈ changes, record.get? field.1 ≠ some field.2) ∧ Merges changes record merged ∧
      next = m.set key merged := by
  cases h with
  | absent _ hz => exact absurd hz hmatched
  | unchanged _ _ _ _ hz => exact absurd hz hmodified
  | changed record merged hget hdiffers hmerged _ _ =>
    exact ⟨record, merged, hget, hdiffers, hmerged, rfl⟩

end MapUpdate

section Steps
variable {before after : List Document}

/-- Changing fields of a document changes its record. -/
theorem mapUpdate_of_updates (h : Keyed before) {id : String} {changes : Record Value}
    (hc : "_id" ∉ changes.names) {result : UpdateResult}
    (hupdate : Updates (SetsEach changes) (soughtId id) before result after) :
    Keyed after ∧ MapUpdate (entries before) (keyOf id) changes result (entries after) := by
  have hids : ids after = ids before :=
    (hupdate.imp fun _ _ _ hsets => (hsets.merged.without_id hc).1).ids_eq
  have hkeyed : Keyed after := ⟨hids ▸ h.distinct, hids ▸ h.generated⟩
  refine ⟨hkeyed, ?_⟩
  cases hupdate with
  | absent hnone => exact .absent ((h.get?_eq_none_iff id).mpr hnone) rfl
  | @changed front back _ document put modified hid hsets hbefore hafter =>
    subst hbefore hafter
    obtain ⟨hput, hmerged⟩ := hsets.merged.without_id hc
    obtain ⟨hentries, hnot, -, hget⟩ := h.entries_split hid
    obtain ⟨hentries', -, -, -⟩ := hkeyed.entries_split (hput.trans hid)
    have hrecord : ∀ field ∈ changes,
        (document.erase "_id").get? field.1 = document.get? field.1 := by
      intro field hf
      have hne : field.1 ≠ "_id" := fun heq => hc (heq ▸ List.mem_map_of_mem hf)
      exact Record.get?_erase_of_ne hne document
    by_cases hmodified : modified = 0
    · have hsame := hsets.noticed.mp hmodified
      rw [hsets.merged.eq_of_same hsame]
      refine .unchanged _ hget (fun field hf => ?_) Int.one_ne_zero hmodified
      rw [hrecord field hf]
      exact hsame field hf
    · have hdiffers : ∃ field ∈ changes, (document.erase "_id").get? field.1 ≠ some field.2 := by
        by_contra hnone
        refine hmodified (hsets.noticed.mpr fun field hf => ?_)
        rw [← hrecord field hf]
        by_contra hne
        exact hnone ⟨field, hf, hne⟩
      have hset : entries (front ++ put :: back) =
          (entries (front ++ document :: back)).set (keyOf id) (put.erase "_id") := by
        rw [hentries, hentries', Record.set_append_of_not_mem hnot]
        simp [Record.set]
      rw [hset]
      exact .changed _ _ hget hdiffers hmerged Int.one_ne_zero hmodified

/-- A change of no field tells whether the map has the key. -/
theorem mapUpdate_of_count (h : Keyed before) (id : String) {matched : Int}
    (hmatched : matched = (ids before).count (some (soughtId id))) :
    MapUpdate (entries before) (keyOf id) [] ⟨matched, 0⟩ (entries before) := by
  cases hget : (entries before).get? (keyOf id) with
  | none =>
    refine .absent hget ?_
    rw [hmatched, List.count_eq_zero_of_not_mem ((h.get?_eq_none_iff id).mp hget)]
    rfl
  | some record =>
    have hmem : some (soughtId id) ∈ ids before := by
      by_contra hnone
      rw [(h.get?_eq_none_iff id).mpr hnone] at hget
      cases hget
    have hpos := List.count_pos_iff.mpr hmem
    refine .unchanged record hget (by simp) ?_ rfl
    change matched ≠ 0
    omega

/-- A document that is added without an identifier is a record under a new key. -/
theorem entries_of_inserts (h : Keyed before) {document : Document} {id : Value}
    (hnone : document.get? "_id" = none) (hinsert : Inserts document id before after) :
    Keyed after ∧ ∃ own, id = .objectId own ∧ (entries before).get? own.text = none ∧
      entries after = (entries before).set own.text (document.erase "_id") := by
  obtain ⟨own, rfl⟩ := hinsert.generated hnone
  have hids := hinsert.ids_eq
  obtain ⟨stored, hid, hrecord, hafter⟩ := hinsert.stored
  have hkeyed : Keyed after := by
    refine ⟨hinsert.nodup_ids h.distinct, ?_⟩
    rw [hids]
    intro id hmem
    rcases List.mem_append.mp hmem with hold | hnew
    · exact h.generated id hold
    · exact ⟨own, List.mem_singleton.mp hnew⟩
  have hget : (entries before).get? own.text = none := by
    have hsought := h.get?_eq_none_iff own.text
    rw [keyOf_text, soughtId_text] at hsought
    exact hsought.mpr hinsert.fresh
  refine ⟨hkeyed, own, rfl, hget, ?_⟩
  have hentry : entry stored = (own.text, document.erase "_id") := by
    rw [← hrecord]
    exact Prod.ext (fst_entry hid) rfl
  rw [Record.set_of_not_mem_names (Record.get?_eq_none_iff.mp hget), hafter, entries,
    List.map_append, List.map_singleton, hentry]
  rfl

/-- Removing the document of a key erases the key. -/
theorem entries_of_deletes (h : Keyed before) {id : String} {n : Int}
    (hdelete : Deletes (soughtId id) before n after) :
    Keyed after ∧ (n = 0 ↔ (entries before).get? (keyOf id) = none) ∧
      entries after = (entries before).erase (keyOf id) := by
  have hkeyed : Keyed after :=
    ⟨h.distinct.sublist (hdelete.sublist.map _),
      fun id hmem => h.generated id ((hdelete.sublist.map _).subset hmem)⟩
  refine ⟨hkeyed, ?_⟩
  cases hdelete with
  | absent hnone =>
    have hget := (h.get?_eq_none_iff id).mpr hnone
    refine ⟨iff_of_true rfl hget, ?_⟩
    exact (Record.erase_of_not_mem_names (Record.get?_eq_none_iff.mp hget)).symm
  | @removed front back _ document hid hbefore hafter =>
    subst hbefore hafter
    obtain ⟨hentries, hfront, hback, hget⟩ := h.entries_split hid
    refine ⟨iff_of_false Int.one_ne_zero (by simp [hget]), ?_⟩
    rw [hentries, Record.erase_append, Record.erase_cons, if_pos rfl,
      Record.erase_of_not_mem_names hfront, Record.erase_of_not_mem_names hback, entries,
      List.map_append]
    rfl

end Steps

/-! Calls of the store. -/

section Calls
variable {σ : Type} {c : Collection σ} {held : σ → List Document} {works : Nat → σ → Prop}
  (hc : c.Trusted held works) {n : Nat} {s : σ} (h : Keyed (held s))
include hc

theorem decode_soughtId (id : String) : c.decode .objectIdOrText id = .ok (soughtId id) :=
  decode_objectIdOrText hc.readsHex id

include h

theorem findById_keyed (hs : works n s) (id : String) :
    ∃ found after, outcome ((c.store .objectIdOrText).findById id none) s = (.ok found, after) ∧
      works n after ∧ held after = held s ∧
      Option.Rel (fun document record => Shows document (keyOf id) record) found
        ((entries (held s)).get? (keyOf id)) := by
  obtain ⟨found, after, hrun, hfinds, hheld, hafter⟩ :=
    exists_findById hc.laws (hc.serves.available n) hs (decode_soughtId hc id)
  refine ⟨_, after, hrun, hafter, hheld, ?_⟩
  have hrel := h.rel_of_finds hfinds
  generalize (entries (held s)).get? (keyOf id) = sought at hrel
  cases hrel with
  | none => exact .none
  | @some document record hentry =>
    obtain ⟨hd, hentry⟩ := hentry
    obtain ⟨own, hown⟩ := h.objectId hd
    have hshows := shows_shownDocument hown
    rw [hentry] at hshows
    exact .some hshows

/-- A new document is stored under a key that was not in use. -/
theorem insert_keyed (hs : works (n + 1) s) {document : Document}
    (hid : document.get? "_id" = none ∨ document.get? "_id" = some .null) :
    ∃ created after key, outcome ((c.store .objectIdOrText).insert document) s =
        (.ok created, after) ∧
      works n after ∧ Keyed (held after) ∧ Shows created key (document.erase "_id") ∧
      (entries (held s)).get? key = none ∧
      entries (held after) = (entries (held s)).set key (document.erase "_id") := by
  have hnone := get?_withoutNullId hid
  have herase : (withoutNullId document).erase "_id" = document.erase "_id" := by
    rw [withoutNullId_eq_erase hid,
      Record.erase_of_not_mem_names (Record.not_mem_names_erase document "_id")]
  obtain ⟨id, after, hrun, hafter⟩ := hc.serves.inserts n _ s hnone hs
  obtain ⟨hkeyed, own, rfl, hfresh, hentries⟩ :=
    entries_of_inserts h hnone (hc.laws.inserted _ s id after hrun)
  have hcall : outcome ((c.store .objectIdOrText).insert document) s =
      (.ok (IdCodec.shownDocument ((withoutNullId document).set "_id" (.objectId own))), after) := by
    rw [store_insert, outcome_map, hrun]
    rfl
  have hown := Record.get?_set_self (withoutNullId document) "_id" (Value.objectId own)
  have hshows := shows_shownDocument hown
  rw [fst_entry hown, entry, Record.erase_set_self, herase] at hshows
  exact ⟨_, after, own.text, hcall, hafter, hkeyed, hshows, hfresh, herase ▸ hentries⟩

/-- Changing some fields of the document of a key, if it has one. -/
theorem updateById_keyed (hs : works n s) (id : String) (patch : Record Value) :
    ∃ result after, outcome ((c.store .objectIdOrText).updateById id patch) s =
        (.ok result, after) ∧
      works n after ∧ Keyed (held after) ∧
      MapUpdate (entries (held s)) (keyOf id) (patch.erase "_id") result
        (entries (held after)) := by
  have hkey := isKey_soughtId id
  have hnot := Record.not_mem_names_erase patch "_id"
  rw [store_updateById (decode_soughtId hc id)]
  split
  · rename_i hempty
    obtain ⟨matched, after, hrun, hcounted, hheld, hafter⟩ :=
      exists_count hc.laws (hc.serves.available n) hs hkey
    have hcall : outcome ((fun matched => ⟨matched, 0⟩) <$> c.count (byId (soughtId id))) s =
        (.ok (⟨matched, 0⟩ : UpdateResult), after) := by
      rw [outcome_map, hrun]
      rfl
    refine ⟨_, after, hcall, hafter, hheld ▸ h, ?_⟩
    rw [hheld, List.isEmpty_iff.mp hempty]
    exact mapUpdate_of_count h id hcounted
  · obtain ⟨result, after, hrun, hafter⟩ :=
      hc.serves.updates n (soughtId id) (patch.erase "_id") s hkey hnot hs
    have hupdate := hc.setsByName (soughtId id) (patch.erase "_id") s result after hkey hnot
      (fun _ _ => trivial) hrun
    exact ⟨result, after, hrun, hafter, mapUpdate_of_updates h hnot hupdate⟩

theorem deleteById_keyed (hs : works n s) (id : String) :
    ∃ removed after, outcome ((c.store .objectIdOrText).deleteById id) s = (.ok removed, after) ∧
      works n after ∧ Keyed (held after) ∧
      (removed = 0 ↔ (entries (held s)).get? (keyOf id) = none) ∧
      entries (held after) = (entries (held s)).erase (keyOf id) := by
  have hkey := isKey_soughtId id
  obtain ⟨removed, after, hrun, hafter⟩ := hc.serves.deletes n (soughtId id) s hkey hs
  have hdelete := hc.laws.deleted (soughtId id) s removed after hkey hrun
  rw [store_deleteById (decode_soughtId hc id)]
  exact ⟨removed, after, hrun, hafter, entries_of_deletes h hdelete⟩

end Calls

end DocumentApi.Collection
