import DocumentApi.Proofs.Store.Calls
import Mathlib.Data.List.Nodup
import Mathlib.Data.List.Perm.Subperm

/-!
What is relied on of a collection, whichever it is; `held` says which documents it holds, the oldest
first. `Laws` are about single calls that name an identifier: such a call that fails changes
nothing, identifiers are given once, and what answers an update or a removal is the one document
under the identifier. The other laws are asked for where they matter.
-/

set_option autoImplicit false

namespace DocumentApi

variable {σ : Type}

namespace Collection

def ids (documents : List Document) : List (Option Value) :=
  documents.map fun document => document.get? "_id"

/-- The text that a document is listed under. -/
def idText (document : Document) : String := ((document.get? "_id").getD .null).text

/-- Identifiers that documents are looked up by. -/
def IsKey : Value → Prop
  | .string _ | .objectId _ => True
  | _ => False

/-- A document is added under an identifier of its own: the one that it has, else a generated one. -/
structure Inserts (document : Document) (id : Value) (before after : List Document) : Prop where
  stored : ∃ stored : Document, stored.get? "_id" = some id ∧
    stored.erase "_id" = document.erase "_id" ∧ after = before ++ [stored]
  fresh : some id ∉ ids before
  given : ∀ own, document.get? "_id" = some own → id = own
  generated : document.get? "_id" = none → ∃ own, id = .objectId own

/-- The document under an identifier, if there is one, becomes another; the number of those modified
is told with it. -/
inductive Updates (becomes : Document → Int → Document → Prop) (id : Value)
    (before : List Document) : UpdateResult → List Document → Prop where
  | absent (h : some id ∉ ids before) : Updates becomes id before ⟨0, 0⟩ before
  | changed {front back after : List Document} {document put : Document} {modified : Int}
      (hid : document.get? "_id" = some id) (hbecomes : becomes document modified put)
      (hbefore : before = front ++ document :: back) (hafter : after = front ++ put :: back) :
    Updates becomes id before ⟨1, modified⟩ after

/-- The document under an identifier, if there is one, is removed. -/
inductive Deletes (id : Value) (before : List Document) : Int → List Document → Prop where
  | absent (h : some id ∉ ids before) : Deletes id before 0 before
  | removed {front back after : List Document} {document : Document}
      (hid : document.get? "_id" = some id) (hbefore : before = front ++ document :: back)
      (hafter : after = front ++ back) : Deletes id before 1 after

/-- What is found under an identifier: a document that has it, unless none has. -/
def Finds (id : Value) (documents : List Document) : Option Document → Prop
  | none => some id ∉ ids documents
  | some document => document ∈ documents ∧ document.get? "_id" = some id

/-- No update renames a document. -/
def KeepsId (document : Document) (_ : Int) (put : Document) : Prop :=
  put.get? "_id" = document.get? "_id"

/-- Fields are set one after the other, in whatever order: those that are there in their place, and
new ones at the end. -/
def Merges (changes document put : Record Value) : Prop :=
  ∃ given : Record Value, given.Perm changes ∧ put = document.merge given

/-- A document is changed by setting fields, and counts as modified unless it had these values. -/
structure SetsEach (changes : Record Value) (document : Document) (modified : Int)
    (put : Document) : Prop where
  merged : Merges changes document put
  noticed : modified = 0 ↔ ∀ field ∈ changes, document.get? field.1 = some field.2

section Relations
variable {id : Value} {before after : List Document}

theorem Inserts.ids_eq {document : Document} (h : Inserts document id before after) :
    ids after = ids before ++ [some id] := by
  obtain ⟨stored, hid, -, rfl⟩ := h.stored
  simp [ids, hid]

theorem Inserts.nodup_ids {document : Document} (h : Inserts document id before after)
    (hdistinct : (ids before).Nodup) : (ids after).Nodup := by
  rw [h.ids_eq]
  exact List.nodup_append.mpr ⟨hdistinct, List.nodup_singleton _, fun a ha b hb heq =>
    h.fresh (List.mem_singleton.mp hb ▸ heq ▸ ha)⟩

theorem Updates.ids_eq {result : UpdateResult} (h : Updates KeepsId id before result after) :
    ids after = ids before := by
  cases h with
  | absent h => rfl
  | changed hid hkeeps hbefore hafter =>
    rw [hbefore, hafter]
    simp only [ids, List.map_append, List.map_cons]
    rw [hkeeps]

theorem Updates.imp {becomes weaker : Document → Int → Document → Prop} {result : UpdateResult}
    (h : Updates becomes id before result after)
    (himp : ∀ document modified put, becomes document modified put → weaker document modified put) :
    Updates weaker id before result after := by
  cases h with
  | absent h => exact .absent h
  | changed hid hbecomes hbefore hafter =>
    exact .changed hid (himp _ _ _ hbecomes) hbefore hafter

theorem Deletes.sublist {n : Int} (h : Deletes id before n after) : after.Sublist before := by
  cases h with
  | absent h => exact List.Sublist.refl _
  | removed hid hbefore hafter =>
    rw [hbefore, hafter]
    exact List.Sublist.append_left (List.sublist_cons_self _ _) _

theorem Merges.without_id {changes document put : Record Value} (h : Merges changes document put)
    (hc : "_id" ∉ changes.names) :
    put.get? "_id" = document.get? "_id" ∧
      Merges changes (document.erase "_id") (put.erase "_id") := by
  obtain ⟨given, hgiven, rfl⟩ := h
  have hnot : "_id" ∉ Record.names given := fun hmem => hc ((hgiven.map _).subset hmem)
  exact ⟨Record.get?_merge_of_not_mem hnot document, given, hgiven,
    Record.erase_merge_of_not_mem hnot document⟩

/-- Fields that are there already make no difference. -/
theorem Merges.eq_of_same {changes document put : Record Value} (h : Merges changes document put)
    (hsame : ∀ field ∈ changes, document.get? field.1 = some field.2) : put = document := by
  obtain ⟨given, hgiven, rfl⟩ := h
  exact Record.merge_of_get? fun field hf => hsame field (hgiven.subset hf)

end Relations

/-! Laws of a collection. -/

section Laws
variable (c : Collection σ) (held : σ → List Document)

/-- Reading changes nothing that is held, whether it succeeds or fails. -/
def Reads : Prop := ∀ call s, call.kind.isRead = true → held (c.after call s) = held s

/-- What calls for single documents do, and that a call that fails changes nothing. -/
structure Laws : Prop where
  reads : c.Reads held
  failed : ∀ call s fault, (outcome (c.perform call) s).1 = .error fault →
    held (c.after call s) = held s
  everything : ∀ s found after, outcome (c.find [] none 0 0 none) s = (.ok found, after) →
    found.Perm (held s)
  found : ∀ id s found after, IsKey id →
    outcome (c.findOne (byId id) none) s = (.ok found, after) → Finds id (held s) found
  counted : ∀ id s n after, IsKey id → outcome (c.count (byId id)) s = (.ok n, after) →
    n = (ids (held s)).count (some id)
  inserted : ∀ document s id after, outcome (c.insertOne document) s = (.ok id, after) →
    Inserts document id (held s) (held after)
  updated : ∀ id changes s result after, IsKey id → "_id" ∉ Record.names changes →
    outcome (c.updateOne (byId id) (setting changes)) s = (.ok result, after) →
      Updates KeepsId id (held s) result (held after)
  deleted : ∀ id s n after, IsKey id → outcome (c.deleteOne (byId id)) s = (.ok n, after) →
    Deletes id (held s) n (held after)

/-- A change of fields with such names sets each of them by its name; other names may be read as
paths into a document, or be refused. -/
def SetsByName (named : String → Prop) : Prop :=
  ∀ id changes s result after, IsKey id → "_id" ∉ Record.names changes →
    (∀ name ∈ Record.names changes, named name) →
    outcome (c.updateOne (byId id) (setting changes)) s = (.ok result, after) →
      Updates (SetsEach changes) id (held s) result (held after)

/-- A query, whatever it asks for, finds no document twice. -/
def FindsOnce : Prop :=
  ∀ request s found after, outcome (c.findFor request) s = (.ok found, after) →
    (ids found).Subperm (ids (held s))

/-- The texts of object identifiers are those of twenty-four digits in base sixteen. -/
def ReadsHex : Prop := ∀ id found, c.readId id = .ok found ↔ ObjectId.ofHex? id = some found

/-- States in which what is read for every document, or under an identifier, is answered. -/
structure Available (works : σ → Prop) : Prop where
  kept : ∀ call s, call.kind.isRead = true → works s → works (c.after call s)
  finds : ∀ s, works s → ∃ found after, outcome (c.find [] none 0 0 none) s = (.ok found, after)
  findsOne : ∀ id s, IsKey id → works s →
    ∃ found after, outcome (c.findOne (byId id) none) s = (.ok found, after)
  counts : ∀ id s, IsKey id → works s → ∃ n after, outcome (c.count (byId id)) s = (.ok n, after)

/-- A document is given the values that it has in fields with such names. -/
def TakesSame (named : String → Prop) (works : σ → Prop) : Prop :=
  ∀ id changes s, IsKey id → works s → "_id" ∉ Record.names changes →
    (∀ name ∈ Record.names changes, named name) →
    (∃ document ∈ held s, document.get? "_id" = some id ∧
      ∀ field ∈ changes, document.get? field.1 = some field.2) →
    ∃ result after, outcome (c.updateOne (byId id) (setting changes)) s = (.ok result, after)

/-- States in which single documents are read and written, and so many more can be added under
generated identifiers. -/
structure Serves (works : Nat → σ → Prop) : Prop where
  available : ∀ n, c.Available (works n)
  fewer : ∀ n s, works (n + 1) s → works n s
  inserts : ∀ n document s, Record.get? document "_id" = none → works (n + 1) s →
    ∃ id after, outcome (c.insertOne document) s = (.ok id, after) ∧ works n after
  updates : ∀ n id changes s, IsKey id → "_id" ∉ Record.names changes → works n s →
    ∃ result after, outcome (c.updateOne (byId id) (setting changes)) s = (.ok result, after) ∧
      works n after
  deletes : ∀ n id s, IsKey id → works n s →
    ∃ removed after, outcome (c.deleteOne (byId id)) s = (.ok removed, after) ∧ works n after

/-- What is trusted of a collection that is seen as a map: besides the laws, that a change sets
fields by their names, whatever these are, and that calls are answered in working states. -/
structure Trusted (works : Nat → σ → Prop) : Prop where
  laws : c.Laws held
  readsHex : c.ReadsHex
  setsByName : c.SetsByName held fun _ => True
  serves : c.Serves works

end Laws

end Collection

end DocumentApi
