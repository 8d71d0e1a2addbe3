import DocumentApi.ObjectId.Lemmas
import DocumentApi.Proofs.Store.Laws
import DocumentApi.Store.Memory

/-!
The collection in memory keeps the laws, unless it is disturbed in what it counts or shows: `laws`,
`setsByName`, `findsOnce`, `readsHex` and `notes`. It is there for calls that nothing makes fail
(`available`, `takesSame`), and gives out identifiers until all are used (`serves`).
-/

set_option autoImplicit false

namespace DocumentApi

namespace Disturbance

def faultOf? (d : Disturbance) (kind : CallKind) : Option StoreFault :=
  d.fail.bind fun failing => if kind = failing.1 then some failing.2 else .none

/-- What is counted and shown is what is there. -/
structure Honest (d : Disturbance) : Prop where
  count : d.count = .none
  hidden : d.hidden = false

theorem honest_none : Disturbance.none.Honest := ⟨rfl, rfl⟩

end Disturbance

namespace Memory

open Collection

/-- The store over a collection that nothing disturbs. -/
abbrev store : DocumentStore Memory := (collection Disturbance.none).store .objectIdOrText

def noted (m : Memory) (call : Call) : Memory := { m with calls := m.calls ++ [call] }

/-! What each call gives and leaves. -/

section Outcomes
variable (d : Disturbance) (m : Memory)

theorem outcome_note (call : Call) :
    outcome (note d call) m = ((d.faultOf? call.kind).elim (.ok ()) .error, m.noted call) := by
  simp only [note, outcome_bind, outcome_modify, Disturbance.faultOf?, noted]
  cases d.fail with
  | none => rfl
  | some failing =>
    obtain ⟨kind, fault⟩ := failing
    by_cases h : call.kind = kind <;> simp [h]

theorem outcome_note_bind {α : Type} (call : Call) (rest : Unit → StoreAction Memory α) :
    outcome (note d call >>= rest) m =
      match d.faultOf? call.kind with
      | some fault => (.error fault, m.noted call)
      | none => outcome (rest ()) (m.noted call) := by
  rw [outcome_bind, outcome_note]
  cases d.faultOf? call.kind <;> rfl

theorem outcome_find (query : Record Value) (fields : Option (Record Value)) (skip limit : Nat)
    (sort : Option (Record Int)) :
    outcome (find d query fields skip limit sort) m =
      ((d.faultOf? .find).elim (.ok (slice skip limit (m.matching query))) .error,
        m.noted (.find query fields skip limit sort)) := by
  rw [find, outcome_note_bind, Call.kind]
  cases d.faultOf? .find <;> rfl

theorem outcome_findFor (request : FindRequest) :
    outcome ((collection d).findFor request) m =
      ((d.faultOf? .find).elim
        (.ok (slice request.skip request.limit (m.matching request.query))) .error,
        m.noted (findCall request)) :=
  outcome_find d m _ _ _ _ _

theorem outcome_findOne (query : Record Value) (fields : Option (Record Value)) :
    outcome (findOne d query fields) m =
      ((d.faultOf? .findOne).elim
        (.ok (if d.hidden then none else (m.matching query).head?)) .error,
        m.noted (.findOne query fields)) := by
  rw [findOne, outcome_note_bind, Call.kind]
  cases d.faultOf? .findOne <;> rfl

theorem outcome_count (query : Record Value) :
    outcome (count d query) m =
      ((d.faultOf? .count).elim (.ok (d.count.getD (m.matching query).length)) .error,
        m.noted (.count query)) := by
  rw [count, outcome_note_bind, Call.kind]
  cases d.faultOf? .count <;> rfl

def issuedFor (m : Memory) (document : Document) : Memory :=
  if document.contains "_id" then m else { m with issued := m.issued + 1 }

theorem outcome_insertOne (document : Document) :
    outcome (insertOne d document) m =
      match d.faultOf? .insertOne with
      | some fault => (.error fault, m.noted (.insertOne document))
      | none =>
        match m.clash? (identified m.issued document) with
        | some field => (.error (duplicate field), (m.noted (.insertOne document)).issuedFor document)
        | none =>
          (.ok (idOf (identified m.issued document)),
            { (m.noted (.insertOne document)).issuedFor document with
              documents := m.documents ++ [identified m.issued document] }) := by
  rw [insertOne, outcome_note_bind, Call.kind]
  cases d.faultOf? .insertOne with
  | some fault => rfl
  | none =>
    simp only [outcome_bind, outcome_get, outcome_set, issuedFor]
    -- Neither the identifiers given out nor the calls matter to what clashes.
    cases document.contains "_id" <;>
      change outcome (match m.clash? (identified m.issued document) with
        | some field => throw (duplicate field)
        | none => _) _ = _ <;>
      cases m.clash? (identified m.issued document) <;> rfl

def differs (document : Document) (changes : Record Value) : Bool :=
  changes.any fun field => document.get? field.1 ≠ some field.2

theorem outcome_updateOne (query update : Record Value) :
    outcome (updateOne d query update) m =
      match d.faultOf? .updateOne with
      | some fault => (.error fault, m.noted (.updateOne query update))
      | none =>
        match (m.matching query).head? with
        | none => (.ok ⟨0, 0⟩, m.noted (.updateOne query update))
        | some document =>
          (.ok ⟨1, if differs document (changesOf update) then 1 else 0⟩,
            { m.noted (.updateOne query update) with
              documents :=
                changeFirst (selects query) (·.merge (changesOf update)) m.documents }) := by
  rw [updateOne, outcome_note_bind, Call.kind]
  cases d.faultOf? .updateOne with
  | some fault => rfl
  | none =>
    simp only [outcome_bind, outcome_get]
    change outcome (match (m.matching query).head? with | none => _ | some document => _) _ = _
    cases (m.matching query).head? <;> rfl

theorem outcome_deleteOne (query : Record Value) :
    outcome (deleteOne d query) m =
      match d.faultOf? .deleteOne with
      | some fault => (.error fault, m.noted (.deleteOne query))
      | none =>
        if (m.matching query).isEmpty then (.ok 0, m.noted (.deleteOne query))
        else (.ok 1, { m.noted (.deleteOne query) with
          documents := m.documents.eraseP (selects query) }) := by
  rw [deleteOne, outcome_note_bind, Call.kind]
  cases d.faultOf? .deleteOne with
  | some fault => rfl
  | none =>
    simp only [outcome_bind, outcome_get]
    change outcome (if (m.matching query).isEmpty then _ else _) _ = _
    cases (m.matching query).isEmpty <;> rfl

end Outcomes

/-! Documents under an identifier. -/

theorem selects_byId {id : Value} (hid : IsKey id) (document : Document) :
    selects (byId id) document = true ↔ document.get? "_id" = some id := by
  have hselects : selects (byId id) document = decide (idOf document = id) := by
    cases id <;> first | rfl | cases hid
  rw [hselects, decide_eq_true_eq, idOf]
  cases document.get? "_id" with
  | none =>
    have hnull : Value.null ≠ id := by
      rintro rfl
      exact hid
    simpa using hnull
  | some own => simp

theorem find?_eq_none_iff {id : Value} (hid : IsKey id) {documents : List Document} :
    documents.find? (selects (byId id)) = none ↔ some id ∉ ids documents := by
  simp only [List.find?_eq_none, selects_byId hid, ids, List.mem_map, not_exists, not_and]

theorem finds_find? {id : Value} (hid : IsKey id) (documents : List Document) :
    Finds id documents (documents.find? (selects (byId id))) := by
  cases h : documents.find? (selects (byId id)) with
  | none => exact (find?_eq_none_iff hid).mp h
  | some document =>
    exact ⟨List.mem_of_find?_eq_some h, (selects_byId hid document).mp (List.find?_some h)⟩

theorem length_matching {id : Value} (hid : IsKey id) (m : Memory) :
    (m.matching (byId id)).length = (ids m.documents).count (some id) := by
  rw [matching, ← List.countP_eq_length_filter, ids, List.count, List.countP_map]
  refine List.countP_congr fun document _ => ?_
  rw [selects_byId hid]
  simp

theorem changeFirst_of_find? {α : Type} {p : α → Bool} {f : α → α} {as : List α} {a : α}
    (h : as.find? p = some a) :
    ∃ front back, as = front ++ a :: back ∧ changeFirst p f as = front ++ f a :: back := by
  induction as with
  | nil => cases h
  | cons b rest ih =>
    cases hb : p b with
    | true =>
      rw [List.find?_cons_of_pos hb, Option.some.injEq] at h
      subst h
      exact ⟨[], rest, rfl, by simp [changeFirst, hb]⟩
    | false =>
      rw [List.find?_cons_of_neg (by simp [hb])] at h
      obtain ⟨front, back, hrest, hchanged⟩ := ih h
      exact ⟨b :: front, back, by simp [hrest], by simp [changeFirst, hb, hchanged]⟩

/-! The laws. -/

section Laws
variable (d : Disturbance)

theorem notes : (collection d).Notes Memory.calls := by
  intro call m
  cases call with
  | find query fields skip limit sort =>
    simp only [after, perform, collection, outcome_effectOf, outcome_find]
    rfl
  | findOne query fields =>
    simp only [after, perform, collection, outcome_effectOf, outcome_findOne]
    rfl
  | count query =>
    simp only [after, perform, collection, outcome_effectOf, outcome_count]
    rfl
  | insertOne document =>
    simp only [after, perform, collection, outcome_effectOf, outcome_insertOne, issuedFor]
    cases d.faultOf? .insertOne with
    | some fault => rfl
    | none =>
      cases m.clash? (identified m.issued document) <;>
        cases document.contains "_id" <;> rfl
  | updateOne query update =>
    simp only [after, perform, collection, outcome_effectOf, outcome_updateOne]
    cases d.faultOf? .updateOne with
    | some fault => rfl
    | none => cases (m.matching query).head? <;> rfl
  | deleteOne query =>
    simp only [after, perform, collection, outcome_effectOf, outcome_deleteOne]
    cases d.faultOf? .deleteOne with
    | some fault => rfl
    | none => cases (m.matching query).isEmpty <;> rfl

theorem readsHex : (collection d).ReadsHex := by
  intro id found
  change readHex id = .ok found ↔ _
  rw [readHex]
  cases ObjectId.ofHex? id <;> simp

theorem after_of_isRead {call : Call} (h : call.kind.isRead = true) (m : Memory) :
    (collection d).after call m = m.noted call := by
  cases call with
  | find query fields skip limit sort =>
    simp only [after, perform, collection, outcome_effectOf, outcome_find]
  | findOne query fields =>
    simp only [after, perform, collection, outcome_effectOf, outcome_findOne]
  | count query =>
    simp only [after, perform, collection, outcome_effectOf, outcome_count]
  | insertOne document => cases h
  | updateOne query update => cases h
  | deleteOne query => cases h

theorem reads : (collection d).Reads Memory.documents := by
  intro call m hread
  rw [after_of_isRead d hread]
  rfl

/-- A call that fails leaves nothing but the note of it and an identifier that is not used. -/
theorem failed (call : Call) (m : Memory) (fault : StoreFault)
    (h : (outcome ((collection d).perform call) m).1 = .error fault) :
    ((collection d).after call m).documents = m.documents := by
  cases call with
  | find query fields skip limit sort => exact reads d _ m rfl
  | findOne query fields => exact reads d _ m rfl
  | count query => exact reads d _ m rfl
  | insertOne document =>
    simp only [after, perform, collection, outcome_effectOf, outcome_insertOne, issuedFor] at h ⊢
    cases hf : d.faultOf? .insertOne with
    | some fault => rfl
    | none =>
      cases hclash : m.clash? (identified m.issued document) with
      | some field => cases document.contains "_id" <;> rfl
      | none => simp [hf, hclash, Except.map] at h
  | updateOne query update =>
    simp only [after, perform, collection, outcome_effectOf, outcome_updateOne] at h ⊢
    cases hf : d.faultOf? .updateOne with
    | some fault => rfl
    | none =>
      cases hhead : (m.matching query).head? with
      | none => rfl
      | some document => simp [hf, hhead, Except.map] at h
  | deleteOne query =>
    simp only [after, perform, collection, outcome_effectOf, outcome_deleteOne] at h ⊢
    cases hf : d.faultOf? .deleteOne with
    | some fault => rfl
    | none => cases hm : (m.matching query).isEmpty <;> simp [hf, hm, Except.map, noted] at h ⊢

/-- What gives nothing but what it was made of comes of a call that is not made to fail. -/
theorem eq_of_elim_eq_ok {α β : Type} {fault : Option StoreFault} {a : α} {b : α} {s t : β}
    (h : (fault.elim (.ok a) .error, s) = (Except.ok (ε := StoreFault) b, t)) : a = b ∧ s = t := by
  cases fault with
  | some fault => cases h
  | none =>
    cases h
    exact ⟨rfl, rfl⟩

theorem get?_identified (issued : Nat) (document : Document) :
    (identified issued document).get? "_id" =
      some ((document.get? "_id").getD (.objectId (ObjectId.ofNat (issued + 1)))) := by
  unfold identified
  cases hid : document.get? "_id" with
  | some id => simp [Record.contains, hid]
  | none =>
    have hfresh := Record.get?_append_of_not_mem (Record.get?_eq_none_iff.mp hid)
      [("_id", Value.objectId (ObjectId.ofNat (issued + 1)))]
    simpa [Record.contains, hid, Record.get?] using hfresh

theorem erase_identified (issued : Nat) (document : Document) :
    (identified issued document).erase "_id" = document.erase "_id" := by
  unfold identified
  split
  · rfl
  · simp [Record.erase]

theorem not_mem_ids_of_clash?_eq_none {m : Memory} {document : Document}
    (h : m.clash? document = none) {id : Value} (hid : document.get? "_id" = some id) :
    some id ∉ ids m.documents := by
  intro hmem
  obtain ⟨stored, hs, heq⟩ := List.mem_map.mp hmem
  simp [clash?, hid] at h
  exact h.1 stored hs heq

theorem inserted (document : Document) (m : Memory) (id : Value) (after : Memory)
    (h : outcome (insertOne d document) m = (.ok id, after)) :
    Inserts document id m.documents after.documents := by
  rw [outcome_insertOne] at h
  cases hf : d.faultOf? .insertOne with
  | some fault =>
    rw [hf] at h
    cases h
  | none =>
    cases hclash : m.clash? (identified m.issued document) with
    | some field =>
      simp only [hf, hclash] at h
      cases h
    | none =>
      simp only [hf, hclash, Prod.mk.injEq, Except.ok.injEq] at h
      obtain ⟨rfl, rfl⟩ := h
      have hget := get?_identified m.issued document
      have hid : idOf (identified m.issued document) =
          (document.get? "_id").getD (.objectId (ObjectId.ofNat (m.issued + 1))) := by
        rw [idOf, hget]
        rfl
      rw [hid]
      refine ⟨⟨_, hget, erase_identified _ _, rfl⟩, not_mem_ids_of_clash?_eq_none hclash hget, ?_, ?_⟩
      · intro own hown
        rw [hown]
        rfl
      · intro hnone
        rw [hnone]
        exact ⟨_, rfl⟩

/-- Whatever is made of the document that is found, it takes its place. -/
theorem updates {becomes : Document → Int → Document → Prop} {id : Value} (hid : IsKey id)
    {changes : Record Value} {m after : Memory} {result : UpdateResult}
    (hbecomes : ∀ document,
      becomes document (if differs document changes then 1 else 0) (document.merge changes))
    (h : outcome (updateOne d (byId id) (setting changes)) m = (.ok result, after)) :
    Updates becomes id m.documents result after.documents := by
  rw [outcome_updateOne] at h
  cases hf : d.faultOf? .updateOne with
  | some fault =>
    rw [hf] at h
    cases h
  | none =>
    simp only [hf, matching, List.head?_filter] at h
    cases hfind : m.documents.find? (selects (byId id)) with
    | none =>
      rw [hfind] at h
      cases h
      exact .absent ((find?_eq_none_iff hid).mp hfind)
    | some document =>
      rw [hfind] at h
      cases h
      obtain ⟨front, back, hbefore, hafter⟩ := changeFirst_of_find? (f := (·.merge changes)) hfind
      exact .changed ((selects_byId hid document).mp (List.find?_some hfind)) (hbecomes document)
        hbefore hafter

theorem setsEach_merge (changes : Record Value) (document : Document) :
    SetsEach changes document (if differs document changes then 1 else 0)
      (document.merge changes) := by
  refine ⟨⟨changes, List.Perm.refl _, rfl⟩, ?_⟩
  have hsame : differs document changes = false ↔
      ∀ field ∈ changes, document.get? field.1 = some field.2 := by
    simp [differs]
  rw [← hsame]
  cases differs document changes <;> simp

/-- Every name is taken as it stands. -/
theorem setsByName (named : String → Prop) :
    (collection d).SetsByName Memory.documents named := by
  intro id changes m result after hid _ _ h
  exact updates d hid (setsEach_merge changes) h

theorem deleted (id : Value) (m : Memory) (n : Int) (after : Memory) (hid : IsKey id)
    (h : outcome (deleteOne d (byId id)) m = (.ok n, after)) :
    Deletes id m.documents n after.documents := by
  rw [outcome_deleteOne] at h
  cases hf : d.faultOf? .deleteOne with
  | some fault =>
    rw [hf] at h
    cases h
  | none =>
    simp only [hf] at h
    cases hm : (m.matching (byId id)).isEmpty with
    | true =>
      simp only [hm, if_true] at h
      cases h
      refine .absent ?_
      rw [← find?_eq_none_iff hid, ← List.head?_filter]
      exact List.head?_eq_none_iff.mpr (List.isEmpty_iff.mp hm)
    | false =>
      simp only [hm] at h
      cases h
      have hsome : m.matching (byId id) ≠ [] := by
        rw [Ne, ← List.isEmpty_iff, hm]
        decide
      obtain ⟨found, hmem⟩ := List.exists_mem_of_ne_nil _ hsome
      obtain ⟨hheld, hfound⟩ := List.mem_filter.mp hmem
      obtain ⟨document, front, back, -, hselected, hbefore, hafter⟩ :=
        List.exists_of_eraseP hheld hfound
      exact .removed ((selects_byId hid document).mp hselected) hbefore hafter

theorem laws (hd : d.Honest) : (collection d).Laws Memory.documents where
  reads := reads d
  failed := failed d
  everything m found after h := by
    have hall : m.matching [] = m.documents := List.filter_eq_self.mpr fun _ _ => rfl
    have hgiven := eq_of_elim_eq_ok ((outcome_find d m [] none 0 0 none).symm.trans h)
    rw [← hgiven.1, hall]
    exact List.Perm.refl _
  found id m found after hid h := by
    have hgiven := eq_of_elim_eq_ok ((outcome_findOne d m (byId id) none).symm.trans h)
    rw [← hgiven.1, hd.hidden, matching, List.head?_filter]
    exact finds_find? hid m.documents
  counted id m n after hid h := by
    have hgiven := eq_of_elim_eq_ok ((outcome_count d m (byId id)).symm.trans h)
    rw [← hgiven.1, hd.count, ← length_matching hid]
    rfl
  inserted := inserted d
  updated id changes m result after hid hnot h :=
    updates d hid (fun document => Record.get?_merge_of_not_mem hnot document) h
  deleted := deleted d

theorem sublist_slice {α : Type} (skip limit : Nat) (as : List α) :
    (slice skip limit as).Sublist as := by
  unfold slice
  split
  · exact List.drop_sublist skip as
  · exact (List.take_sublist limit _).trans (List.drop_sublist skip as)

theorem findsOnce : (collection d).FindsOnce Memory.documents := by
  intro request m found after h
  have hgiven := eq_of_elim_eq_ok ((outcome_findFor d m request).symm.trans h)
  rw [← hgiven.1]
  exact (((sublist_slice _ _ _).trans List.filter_sublist).map _).subperm

end Laws

/-! Calls that nothing makes fail. -/

section Undisturbed

theorem faultOf?_none (kind : CallKind) : Disturbance.none.faultOf? kind = none := rfl

theorem available : (collection Disturbance.none).Available fun _ => True where
  kept _ _ _ _ := trivial
  finds m _ := ⟨_, _, outcome_find Disturbance.none m [] none 0 0 none⟩
  findsOne id m _ _ := ⟨_, _, outcome_findOne Disturbance.none m (byId id) none⟩
  counts id m _ _ := ⟨_, _, outcome_count Disturbance.none m (byId id)⟩

theorem exists_updateOne (id : Value) (changes : Record Value) (m : Memory) :
    ∃ result after, outcome (updateOne Disturbance.none (byId id) (setting changes)) m =
      (.ok result, after) ∧ after.unique = m.unique ∧ after.issued = m.issued := by
  rw [outcome_updateOne]
  simp only [faultOf?_none]
  cases (m.matching (byId id)).head? with
  | none => exact ⟨_, _, rfl, rfl, rfl⟩
  | some document => exact ⟨_, _, rfl, rfl, rfl⟩

theorem takesSame (named : String → Prop) :
    (collection Disturbance.none).TakesSame Memory.documents named fun _ => True := by
  intro id changes m _ _ _ _ _
  obtain ⟨result, after, hrun, -, -⟩ := exists_updateOne id changes m
  exact ⟨result, after, hrun⟩

theorem exists_deleteOne (id : Value) (m : Memory) :
    ∃ removed after, outcome (deleteOne Disturbance.none (byId id)) m = (.ok removed, after) ∧
      after.unique = m.unique ∧ after.issued = m.issued := by
  rw [outcome_deleteOne]
  simp only [faultOf?_none]
  cases (m.matching (byId id)).isEmpty with
  | true => exact ⟨_, _, rfl, rfl, rfl⟩
  | false => exact ⟨_, _, rfl, rfl, rfl⟩

/-- Documents have identifiers that were given out, and so many more can be. -/
structure Stocked (n : Nat) (m : Memory) : Prop where
  unique : m.unique = []
  issued : ∀ id ∈ ids m.documents, ∃ k ≤ m.issued, id = some (.objectId (ObjectId.ofNat k))
  left : m.issued + n < 2 ^ 96

namespace Stocked

variable {n : Nat} {m after : Memory}

theorem of_ids_subset (h : Stocked n m) (hunique : after.unique = m.unique)
    (hissued : after.issued = m.issued) (hids : ids after.documents ⊆ ids m.documents) :
    Stocked n after := by
  refine ⟨hunique.trans h.unique, fun id hid => ?_, hissued ▸ h.left⟩
  rw [hissued]
  exact h.issued id (hids hid)

/-- Identifiers are counted, so the next one is fresh until all have been given out. -/
theorem clash?_eq_none (h : Stocked (n + 1) m) {document : Document}
    (hid : document.get? "_id" = none) : m.clash? (identified m.issued document) = none := by
  have hfresh : ∀ stored ∈ m.documents,
      stored.get? "_id" ≠ some (.objectId (ObjectId.ofNat (m.issued + 1))) := by
    intro stored hs heq
    obtain ⟨k, hk, hown⟩ := h.issued _ (List.mem_map_of_mem hs)
    rw [heq, Option.some.injEq, Value.objectId.injEq] at hown
    have hleft := h.left
    have hnext := ObjectId.eq_of_ofNat_eq (by omega) (by omega) hown
    omega
  simp only [clash?, h.unique, List.findSome?_cons, get?_identified, hid, Option.getD_none,
    Option.bind_some]
  rw [if_neg]
  · rfl
  · simpa using hfresh

theorem exists_insertOne (h : Stocked (n + 1) m) {document : Document}
    (hid : document.get? "_id" = none) :
    ∃ id after, outcome (insertOne Disturbance.none document) m = (.ok id, after) ∧
      Stocked n after := by
  have hcontains : document.contains "_id" = false := by simp [Record.contains, hid]
  rw [outcome_insertOne]
  simp only [faultOf?_none, h.clash?_eq_none hid, issuedFor, hcontains]
  refine ⟨_, _, rfl, h.unique, ?_, ?_⟩
  · intro id hmem
    simp only [ids, List.map_append, List.map_singleton, List.mem_append, List.mem_singleton] at hmem
    rcases hmem with hold | hnew
    · obtain ⟨k, hk, hown⟩ := h.issued id hold
      exact ⟨k, Nat.le_succ_of_le hk, hown⟩
    · rw [hnew, get?_identified, hid]
      exact ⟨_, Nat.le_refl _, rfl⟩
  · have hleft := h.left
    change m.issued + 1 + n < _
    omega

end Stocked

theorem serves : (collection Disturbance.none).Serves Stocked where
  available n :=
    { kept := fun call m hread h => by
        rw [after_of_isRead _ hread]
        exact h.of_ids_subset rfl rfl (List.Subset.refl _)
      finds := fun m _ => available.finds m trivial
      findsOne := fun id m hid _ => available.findsOne id m hid trivial
      counts := fun id m hid _ => available.counts id m hid trivial }
  fewer n m h := ⟨h.unique, h.issued, by have := h.left; omega⟩
  inserts n document m hid h := h.exists_insertOne hid
  updates n id changes m hid hnot h := by
    obtain ⟨result, after, hrun, hunique, hissued⟩ := exists_updateOne id changes m
    have hids := ((laws _ Disturbance.honest_none).updated id changes m result after hid hnot
      hrun).ids_eq
    exact ⟨result, after, hrun, h.of_ids_subset hunique hissued fun _ hmem => hids ▸ hmem⟩
  deletes n id m hid h := by
    obtain ⟨removed, after, hrun, hunique, hissued⟩ := exists_deleteOne id m
    have hsublist := ((laws _ Disturbance.honest_none).deleted id m removed after hid hrun).sublist
    exact ⟨removed, after, hrun, h.of_ids_subset hunique hissued (hsublist.map _).subset⟩

theorem trusted : (collection Disturbance.none).Trusted Memory.documents Stocked :=
  ⟨laws _ Disturbance.honest_none, readsHex _, setsByName _ _, serves⟩

end Undisturbed

end Memory

end DocumentApi
