import DocumentApi.Proofs.Action
import DocumentApi.Store.OfCollection

/-!
Calls of the store over a collection. Each is refused for its identifier, or makes exactly one call
of the collection, which is `StoreCall.made`: it leaves what that call leaves and fails as it does
(`effectOf_perform`).
-/

set_option autoImplicit false

namespace DocumentApi

variable {σ : Type}

namespace Collection

/-- Makes a call, of which nothing is told but whether it fails. -/
def perform (c : Collection σ) : Call → StoreAction σ Unit
  | .find query fields skip limit sort => effectOf (c.find query fields skip limit sort)
  | .findOne query fields => effectOf (c.findOne query fields)
  | .count query => effectOf (c.count query)
  | .insertOne document => effectOf (c.insertOne document)
  | .updateOne query update => effectOf (c.updateOne query update)
  | .deleteOne query => effectOf (c.deleteOne query)

/-- The state that a call leaves. -/
def after (c : Collection σ) (call : Call) (s : σ) : σ := (outcome (c.perform call) s).2

theorem after_of_outcome {c : Collection σ} {call : Call} {α : Type} {action : StoreAction σ α}
    (hcall : c.perform call = effectOf action) {s last : σ} {result : Except StoreFault α}
    (h : outcome action s = (result, last)) : c.after call s = last := by
  rw [after, hcall, outcome_effectOf, h]

/-- The identifier for a text in a path. -/
def decode (c : Collection σ) (codec : IdCodec) (id : String) : Except StoreFault Value :=
  codec.decode c.readId id

def findCall (request : FindRequest) : Call :=
  .find request.query (StoreQuery.ofFields request.fields) request.skip request.limit
    (request.sort.filter fun sort => !sort.isEmpty)

/-- The call that sets fields, which is only to count where there are none to set. -/
def updateCall (id : Value) (changes : Record Value) : Call :=
  if changes.isEmpty then .count (byId id) else .updateOne (byId id) (setting changes)

end Collection

inductive StoreCall where
  | find (request : FindRequest)
  | findById (id : String) (fields : Option (List String))
  | count (query : Record Value)
  | insert (document : Document)
  | updateById (id : String) (patch : Record Value)
  | deleteById (id : String)
deriving DecidableEq, Repr

/-- What a call of a store gives. -/
inductive StoreReply where
  | documents (found : List Document)
  | document (found : Option Document)
  | count (n : Int)
  | inserted (document : Document)
  | updated (result : UpdateResult)
  | removed (n : Int)
deriving DecidableEq, Repr

namespace StoreCall

open Collection

def perform (store : DocumentStore σ) : StoreCall → StoreAction σ StoreReply
  | find request => .documents <$> store.find request
  | findById id fields => .document <$> store.findById id fields
  | count query => .count <$> store.count query
  | insert document => .inserted <$> store.insert document
  | updateById id patch => .updated <$> store.updateById id patch
  | deleteById id => .removed <$> store.deleteById id

def after (store : DocumentStore σ) (call : StoreCall) (s : σ) : σ :=
  (outcome (call.perform store) s).2

def run (store : DocumentStore σ) (calls : List StoreCall) (s : σ) : σ :=
  calls.foldl (fun s call => call.after store s) s

/-- What every call preserves, a run preserves. -/
theorem run_preserves {store : DocumentStore σ} (allowed : StoreCall → Prop) (inv : σ → Prop)
    (step : ∀ call s, allowed call → inv s → inv (call.after store s)) {calls : List StoreCall}
    (hc : ∀ call ∈ calls, allowed call) {s : σ} (hs : inv s) : inv (run store calls s) := by
  induction calls generalizing s with
  | nil => exact hs
  | cons call rest ih =>
    have hcall := step call s (hc call List.mem_cons_self) hs
    exact ih (fun c h => hc c (List.mem_cons_of_mem call h)) hcall

/-- The call that is made of a collection, unless the identifier is refused. -/
def made (c : Collection σ) (codec : IdCodec) : StoreCall → Except StoreFault Call
  | find request => .ok (findCall request)
  | findById id fields =>
    (c.decode codec id).map fun id => .findOne (byId id) (StoreQuery.ofFields fields)
  | count query => .ok (.count query)
  | insert document => .ok (.insertOne (withoutNullId document))
  | updateById id patch => (c.decode codec id).map fun id => updateCall id (patch.erase "_id")
  | deleteById id => (c.decode codec id).map fun id => .deleteOne (byId id)

end StoreCall

namespace Collection

/-! What each call of the store is, in calls of the collection. -/

section Store
variable (c : Collection σ) (codec : IdCodec)

theorem store_find (request : FindRequest) :
    (c.store codec).find request =
      (fun found => found.map IdCodec.shownDocument) <$> c.findFor request :=
  (map_eq_pure_bind _ _).symm

theorem store_insert (document : Document) :
    (c.store codec).insert document =
      (fun id => IdCodec.shownDocument ((withoutNullId document).set "_id" id)) <$>
        c.insertOne (withoutNullId document) := by
  rw [map_eq_pure_bind]
  exact (bind_assoc _ _ _).trans (bind_congr fun id => pure_bind _ _)

variable {c codec} {id : String}

theorem selector_of_ok {value : Value} (h : c.decode codec id = .ok value) :
    c.selector codec id = pure (byId value) := by
  rw [decode] at h
  rw [selector, h]

theorem selector_of_error {fault : StoreFault} (h : c.decode codec id = .error fault) :
    c.selector codec id = throw fault := by
  rw [decode] at h
  rw [selector, h]

/-- What looks for a document fails if its identifier is refused. -/
theorem effectOf_selector_of_error {α : Type} {fault : StoreFault}
    (h : c.decode codec id = .error fault) (next : Record Value → StoreAction σ α) :
    effectOf (c.selector codec id >>= next) = throw fault := by
  rw [selector_of_error h]
  rfl

theorem store_findById {value : Value} (h : c.decode codec id = .ok value)
    (fields : Option (List String)) :
    (c.store codec).findById id fields =
      (fun found => found.map IdCodec.shownDocument) <$>
        c.findOne (byId value) (StoreQuery.ofFields fields) := by
  rw [map_eq_pure_bind]
  change c.selector codec id >>= _ = _
  rw [selector_of_ok h]
  exact pure_bind _ _

/-- A change of no field is only counted. -/
theorem store_updateById {value : Value} (h : c.decode codec id = .ok value)
    (patch : Record Value) :
    (c.store codec).updateById id patch =
      if (patch.erase "_id").isEmpty then
        (fun matched => ⟨matched, 0⟩) <$> c.count (byId value)
      else c.updateOne (byId value) (setting (patch.erase "_id")) := by
  rw [map_eq_pure_bind]
  change c.selector codec id >>= _ = _
  rw [selector_of_ok h]
  exact pure_bind _ _

theorem store_deleteById {value : Value} (h : c.decode codec id = .ok value) :
    (c.store codec).deleteById id = c.deleteOne (byId value) := by
  change c.selector codec id >>= _ = _
  rw [selector_of_ok h]
  exact pure_bind _ _

end Store

/-! What a call of the store leaves, and how it fails. -/

/-- A call of the store fails for its identifier, or is one call of the collection. -/
theorem effectOf_perform (c : Collection σ) (codec : IdCodec) (call : StoreCall) :
    effectOf (call.perform (c.store codec)) =
      match call.made c codec with
      | .error fault => throw fault
      | .ok made => c.perform made := by
  cases call with
  | find request =>
    simp only [StoreCall.perform, store_find, effectOf_map]
    rfl
  | count query => exact effectOf_map _ _
  | insert document =>
    simp only [StoreCall.perform, store_insert, effectOf_map]
    rfl
  | findById id fields =>
    simp only [StoreCall.perform, effectOf_map, StoreCall.made]
    cases h : c.decode codec id with
    | ok value =>
      rw [store_findById h, effectOf_map]
      rfl
    | error fault => exact effectOf_selector_of_error h _
  | updateById id patch =>
    simp only [StoreCall.perform, effectOf_map, StoreCall.made]
    cases h : c.decode codec id with
    | ok value =>
      rw [store_updateById h]
      change _ = c.perform (updateCall value (patch.erase "_id"))
      rw [updateCall]
      cases (patch.erase "_id").isEmpty with
      | true => exact effectOf_map _ _
      | false => rfl
    | error fault => exact effectOf_selector_of_error h _
  | deleteById id =>
    simp only [StoreCall.perform, effectOf_map, StoreCall.made]
    cases h : c.decode codec id with
    | ok value =>
      rw [store_deleteById h]
      rfl
    | error fault => exact effectOf_selector_of_error h _

section Made
variable {c : Collection σ} {codec : IdCodec} {call : StoreCall}

theorem after_of_refused {fault : StoreFault} (h : call.made c codec = .error fault) (s : σ) :
    call.after (c.store codec) s = s := by
  have heffect := outcome_effectOf (call.perform (c.store codec)) s
  rw [effectOf_perform, h] at heffect
  exact (congrArg Prod.snd heffect).symm

theorem after_of_made {made : Call} (h : call.made c codec = .ok made) (s : σ) :
    call.after (c.store codec) s = c.after made s := by
  have heffect := outcome_effectOf (call.perform (c.store codec)) s
  rw [effectOf_perform, h] at heffect
  exact (congrArg Prod.snd heffect).symm

/-- A call of the store fails if its identifier is refused, or the call that it makes fails. -/
theorem perform_eq_error_iff {s : σ} {fault : StoreFault} :
    (outcome (call.perform (c.store codec)) s).1 = .error fault ↔
      call.made c codec = .error fault ∨
        ∃ made, call.made c codec = .ok made ∧ (outcome (c.perform made) s).1 = .error fault := by
  rw [← fst_outcome_effectOf_eq_error_iff, effectOf_perform]
  cases call.made c codec <;> simp

end Made

/-! Collections that keep the calls made to them. -/

/-- Every call is added to those made before it. -/
def Notes (c : Collection σ) (calls : σ → List Call) : Prop :=
  ∀ call s, calls (c.after call s) = calls s ++ [call]

namespace Notes

variable {c : Collection σ} {codec : IdCodec} {calls : σ → List Call} {s last : σ}

theorem of_outcome (hc : c.Notes calls) (call : StoreCall)
    {answer : Except StoreFault StoreReply}
    (h : outcome (call.perform (c.store codec)) s = (answer, last)) {made : Call}
    (hmade : call.made c codec = .ok made) : calls last = calls s ++ [made] := by
  have hlast : call.after (c.store codec) s = last := congrArg Prod.snd h
  rw [← hlast, after_of_made hmade, hc]

theorem find (hc : c.Notes calls) {request : FindRequest}
    {result : Except StoreFault (List Document)}
    (h : outcome ((c.store codec).find request) s = (result, last)) :
    calls last = calls s ++ [findCall request] := by
  have hcall := outcome_map StoreReply.documents ((c.store codec).find request) s
  rw [h] at hcall
  exact hc.of_outcome (.find request) hcall rfl

theorem count (hc : c.Notes calls) {query : Record Value} {result : Except StoreFault Int}
    (h : outcome ((c.store codec).count query) s = (result, last)) :
    calls last = calls s ++ [.count query] := by
  have hcall := outcome_map StoreReply.count ((c.store codec).count query) s
  rw [h] at hcall
  exact hc.of_outcome (.count query) hcall rfl

/-- A text that is no identifier is not looked for. -/
theorem findById (hc : c.Notes calls) {id : String} {fields : Option (List String)}
    {result : Except StoreFault (Option Document)}
    (h : outcome ((c.store codec).findById id fields) s = (result, last)) :
    calls last = calls s ∨ ∃ value,
      calls last = calls s ++ [.findOne (byId value) (StoreQuery.ofFields fields)] := by
  have hcall := outcome_map StoreReply.document ((c.store codec).findById id fields) s
  rw [h] at hcall
  cases hid : c.decode codec id with
  | ok value =>
    refine .inr ⟨value, hc.of_outcome (.findById id fields) hcall ?_⟩
    simp [StoreCall.made, hid, Except.map]
  | error fault =>
    have hmade : (StoreCall.findById id fields).made c codec = .error fault := by
      simp [StoreCall.made, hid, Except.map]
    have hlast : (StoreCall.findById id fields).after (c.store codec) s = last :=
      congrArg Prod.snd hcall
    rw [← hlast, after_of_refused hmade]
    exact .inl rfl

end Notes

end Collection

end DocumentApi
