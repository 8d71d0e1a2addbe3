import DocumentApi.Proofs.Store.Change
import DocumentApi.Proofs.Store.Memory

/-!
Reading documents back by the identifiers that the store shows. Identifiers are stored as they come,
looked up through the codec and shown as text, so an identifier that was stored as a text is looked
up as an object identifier when its text can be one. Main statement: `findById_shown_iff`, which
says exactly which documents are read back after any run.
-/

set_option autoImplicit false

namespace DocumentApi

namespace Collection

variable {σ : Type} {c : Collection σ} {held : σ → List Document}

/-- A document to insert has a text for an identifier, or leaves it to the store. -/
def AcceptableId : StoreCall → Prop
  | .insert document =>
    document.get? "_id" = none ∨ document.get? "_id" = some .null ∨
      ∃ text, document.get? "_id" = some (.string text)
  | _ => True

/-- Every document has an identifier of its own, by which it can be looked up. -/
structure Identified (documents : List Document) : Prop where
  distinct : (ids documents).Nodup
  keyed : ∀ id ∈ ids documents, ∃ key, IsKey key ∧ id = some key

theorem Identified.isKey {documents : List Document} (h : Identified documents)
    {document : Document} (hd : document ∈ documents) :
    ∃ key, IsKey key ∧ document.get? "_id" = some key :=
  h.keyed _ (List.mem_map_of_mem hd)

/-! Steps. -/

theorem withoutNullId_eq_erase {document : Document}
    (h : document.get? "_id" = none ∨ document.get? "_id" = some .null) :
    withoutNullId document = document.erase "_id" := by
  rcases h with h | h
  · rw [Record.erase_of_not_mem_names (Record.get?_eq_none_iff.mp h)]
    simp [withoutNullId, h]
  · simp [withoutNullId, h]

theorem get?_withoutNullId {document : Document}
    (h : document.get? "_id" = none ∨ document.get? "_id" = some .null) :
    (withoutNullId document).get? "_id" = none := by
  rw [withoutNullId_eq_erase h]
  exact Record.get?_eq_none_iff.mpr (Record.not_mem_names_erase document "_id")

theorem Inserts.isKey {document : Document} {id : Value} {before after : List Document}
    (h : Inserts (withoutNullId document) id before after)
    (hid : AcceptableId (.insert document)) : IsKey id := by
  rcases or_assoc.mpr hid with hnone | ⟨text, htext⟩
  · obtain ⟨own, rfl⟩ := h.generated (get?_withoutNullId hnone)
    trivial
  · rw [h.given (.string text) (by simp [withoutNullId, htext])]
    trivial

/-- No call makes two documents share an identifier. -/
theorem Change.nodup_ids {codec : IdCodec} {call : StoreCall} {before after : List Document}
    (h : Change c codec before call after) (hdistinct : (ids before).Nodup) :
    (ids after).Nodup := by
  cases h with
  | unchanged call => exact hdistinct
  | added h => exact h.nodup_ids hdistinct
  | changed hid hpatch h => exact h.ids_eq.symm ▸ hdistinct
  | removed hid h => exact hdistinct.sublist (h.sublist.map _)

theorem Change.identified {codec : IdCodec} {call : StoreCall} {before after : List Document}
    (h : Change c codec before call after) (hcall : AcceptableId call)
    (hbefore : Identified before) : Identified after := by
  refine ⟨h.nodup_ids hbefore.distinct, ?_⟩
  cases h with
  | unchanged call => exact hbefore.keyed
  | added h =>
    rw [h.ids_eq]
    intro id hmem
    rcases List.mem_append.mp hmem with hold | hnew
    · exact hbefore.keyed id hold
    · exact ⟨_, h.isKey hcall, List.mem_singleton.mp hnew⟩
  | changed hid hpatch h => exact h.ids_eq.symm ▸ hbefore.keyed
  | removed hid h => exact fun id hmem => hbefore.keyed id ((h.sublist.map _).subset hmem)

theorem identified_run (hc : c.Laws held) (codec : IdCodec) {calls : List StoreCall}
    (hcalls : ∀ call ∈ calls, AcceptableId call) {s : σ} (hempty : held s = []) :
    Identified (held (StoreCall.run (c.store codec) calls s)) := by
  refine StoreCall.run_preserves AcceptableId (fun s => Identified (held s)) ?_ hcalls ?_
  · intro call s hcall hs
    exact (change_after hc codec call s).identified hcall hs
  · rw [hempty]
    exact ⟨List.nodup_nil, fun _ h => absurd h List.not_mem_nil⟩

/-! Reading. -/

def everything : FindRequest := ⟨[], none, 0, 0, none⟩

/-- The document under an identifier, if there is one, is found. -/
theorem finds_iff {documents : List Document} (h : Identified documents) {id : Value}
    {found : Option Document} (hfinds : Finds id documents found) {document : Document} :
    found = some document ↔ document ∈ documents ∧ document.get? "_id" = some id := by
  cases found with
  | none =>
    refine iff_of_false (by simp) ?_
    rintro ⟨hmem, hid⟩
    exact hfinds (hid ▸ List.mem_map_of_mem hmem)
  | some other =>
    rw [Option.some.injEq]
    constructor
    · rintro rfl
      exact hfinds
    · rintro ⟨hmem, hid⟩
      exact List.inj_on_of_nodup_map h.distinct hfinds.1 hmem (hfinds.2.trans hid.symm)

section Found
variable {works : σ → Prop} {s : σ}

theorem findById_eq_some_iff (hc : c.Laws held) (hworks : c.Available works) (hs : works s)
    (h : Identified (held s)) {codec : IdCodec} {id : String} {value : Value}
    (hid : c.decode codec id = .ok value) (document : Document) :
    (outcome ((c.store codec).findById id none) s).1 = .ok (some document) ↔
      ∃ found ∈ held s,
        found.get? "_id" = some value ∧ IdCodec.shownDocument found = document := by
  obtain ⟨found, after, hrun, hfinds, -, -⟩ := exists_findById hc hworks hs hid
  simp only [hrun, Except.ok.injEq, Option.map_eq_some_iff, finds_iff h hfinds, and_assoc]

/-- A document is shown under a text: its own identifier, or that of its object identifier. -/
theorem get?_shownDocument {document : Document} {key : Value} (hkey : IsKey key)
    (h : document.get? "_id" = some key) :
    ∃ id, (IdCodec.shownDocument document).get? "_id" = some (.string id) ∧
      (key = .string id ∨ some key = (ObjectId.ofHex? id).map .objectId) := by
  cases key with
  | string id => exact ⟨id, by simp [IdCodec.shownDocument, h], Or.inl rfl⟩
  | objectId own =>
    refine ⟨own.text, ?_, Or.inr ?_⟩
    · simp [IdCodec.shownDocument, h, Record.get?_set_self]
    · rw [ObjectId.ofHex?_text]
      rfl
  | _ => cases hkey

variable (hhex : c.ReadsHex)
include hhex

/-- An identifier is looked up as an object identifier if its text can be one. -/
theorem decode_objectIdOrText (id : String) :
    c.decode .objectIdOrText id =
      .ok ((ObjectId.ofHex? id).elim (.string id) .objectId) := by
  unfold decode IdCodec.decode
  cases hread : c.readId id with
  | ok found =>
    have hfound := (hhex id found).mp hread
    have hlength : id.toList.length = 24 := by
      unfold ObjectId.ofHex? at hfound
      split at hfound
      · assumption
      · cases hfound
    simp [hfound, hlength]
  | error fault =>
    have hnone : ObjectId.ofHex? id = none := by
      refine Option.eq_none_iff_forall_ne_some.mpr fun found hfound => ?_
      rw [(hhex id found).mpr hfound] at hread
      cases hread
    simp [hnone]

/-- What is read back by the identifier that a stored document is shown under. -/
theorem findById_shown (hc : c.Laws held) (hworks : c.Available works) (hs : works s)
    (h : Identified (held s)) {stored : Document} (hstored : stored ∈ held s) :
    ∃ id, (IdCodec.shownDocument stored).get? "_id" = some (.string id) ∧
      ((outcome ((c.store .objectIdOrText).findById id none) s).1 =
          .ok (some (IdCodec.shownDocument stored)) ↔
        ObjectId.ofHex? id = none ∨ ∃ found ∈ held s,
          found.get? "_id" = (ObjectId.ofHex? id).map .objectId ∧
            IdCodec.shownDocument found = IdCodec.shownDocument stored) := by
  obtain ⟨key, hkey, hget⟩ := h.isKey hstored
  obtain ⟨id, hshown, hown⟩ := get?_shownDocument hkey hget
  refine ⟨id, hshown, ?_⟩
  rw [findById_eq_some_iff hc hworks hs h (decode_objectIdOrText hhex id)]
  cases hid : ObjectId.ofHex? id with
  | none =>
    have htext : key = .string id := by
      refine hown.resolve_right fun heq => ?_
      rw [hid] at heq
      cases heq
    exact iff_of_true ⟨stored, hstored, hget.trans (congrArg some htext), rfl⟩ (Or.inl rfl)
  | some issued => simp

/-- After any run on an empty collection, every document is shown, and one is read back by the
identifier that it is shown under exactly if the text of that cannot be an object identifier, or the
document under that object identifier is shown alike. -/
theorem findById_shown_iff (hc : c.Laws held) (hworks : c.Available works) (hempty : held s = [])
    {calls : List StoreCall} (hcalls : ∀ call ∈ calls, AcceptableId call)
    (hlast : works (StoreCall.run (c.store .objectIdOrText) calls s)) :
    let last := StoreCall.run (c.store .objectIdOrText) calls s
    ∃ shown after, outcome ((c.store .objectIdOrText).find everything) last = (.ok shown, after) ∧
      shown.Perm ((held last).map IdCodec.shownDocument) ∧
      ∀ document ∈ shown, ∃ id, document.get? "_id" = some (.string id) ∧
        ((outcome ((c.store .objectIdOrText).findById id none) after).1 = .ok (some document) ↔
          ObjectId.ofHex? id = none ∨ ∃ stored ∈ held last,
            stored.get? "_id" = (ObjectId.ofHex? id).map .objectId ∧
              IdCodec.shownDocument stored = document) := by
  intro last
  have h : Identified (held last) := identified_run hc .objectIdOrText hcalls hempty
  obtain ⟨found, after, hrun⟩ := hworks.finds last hlast
  have hperm := hc.everything last found after hrun
  have hrun : outcome (c.findFor everything) last = (.ok found, after) := hrun
  have hfind : outcome ((c.store .objectIdOrText).find everything) last =
      (.ok (found.map IdCodec.shownDocument), after) := by
    rw [store_find, outcome_map, hrun]
    rfl
  have hafter : c.after (findCall everything) last = after := after_of_outcome rfl hrun
  refine ⟨_, after, hfind, hperm.map _, fun document hd => ?_⟩
  obtain ⟨stored, hs, rfl⟩ := List.mem_map.mp hd
  have hheld : held after = held last := hafter ▸ hc.reads _ _ rfl
  have hshown := findById_shown hhex hc hworks (hafter ▸ hworks.kept _ _ rfl hlast) (hheld ▸ h)
    (hheld ▸ hperm.subset hs)
  rwa [hheld] at hshown

end Found

open Memory

def mixedRun : List StoreCall :=
  [.insert [("_id", .string "tom"), ("age", .int 3)], .insert [("_id", .null), ("age", .int 5)],
    .insert [("_id", .string "0123456789abcdef01234567")], .updateById "tom" [("age", .int 4)]]

def generatedDocument : Document := [("age", .int 5), ("_id", .objectId (ObjectId.ofNat 1))]

/-- The document that is given an identifier is read back by the text of that. -/
theorem findById_shown_iff_mixedRun :
    let store := (collection Disturbance.none).store .objectIdOrText
    let last := StoreCall.run store mixedRun (ofDocuments [] ["name"])
    let (shown, after) := outcome (store.find everything) last
    (∀ call ∈ mixedRun, AcceptableId call) ∧
    shown = .ok [[("_id", .string "tom"), ("age", .int 4)],
      [("age", .int 5), ("_id", .string "000000000000000000000001")],
      [("_id", .string "0123456789abcdef01234567")]] ∧
    (outcome (store.findById "000000000000000000000001" none) after).1 =
      .ok (some [("age", .int 5), ("_id", .string "000000000000000000000001")]) := by
  intro store last
  have hcalls : ∀ call ∈ mixedRun, AcceptableId call := by
    simp [mixedRun, AcceptableId, Record.get?]
  have hfound : (outcome (store.find everything) last).1 =
      .ok [[("_id", .string "tom"), ("age", .int 4)],
        [("age", .int 5), ("_id", .string "000000000000000000000001")],
        [("_id", .string "0123456789abcdef01234567")]] := by
    decide +kernel
  have hheld : generatedDocument ∈ last.documents := by decide +kernel
  obtain ⟨shown, after, hfind, -, hback⟩ := findById_shown_iff (readsHex Disturbance.none)
    (laws _ Disturbance.honest_none) available (s := ofDocuments [] ["name"]) rfl hcalls trivial
  have hfind : outcome (store.find everything) last = (.ok shown, after) := hfind
  rw [hfind] at hfound ⊢
  cases hfound
  refine ⟨hcalls, rfl, ?_⟩
  obtain ⟨id, hid, hread⟩ := hback [("age", .int 5), ("_id", .string "000000000000000000000001")]
    (by simp)
  obtain rfl : "000000000000000000000001" = id := by simpa [Record.get?] using hid
  exact hread.mpr (Or.inr ⟨generatedDocument, hheld, by decide +kernel, by decide +kernel⟩)

/-- A document inserted under a hexadecimal text is listed under it, but is not found by it. -/
theorem findById_misses_hexadecimal_text :
    let document : Document :=
      [("_id", .string "0123456789abcdef01234567"), ("name", .string "Tom")]
    let store := (collection Disturbance.none).store .objectIdOrText
    let last := StoreCall.run store [.insert document] (ofDocuments [] [])
    (outcome (store.find everything) last).1 = .ok [document] ∧
    (outcome (store.findById "0123456789abcdef01234567" none) last).1 = .ok none := by
  decide +kernel

end Collection

end DocumentApi
