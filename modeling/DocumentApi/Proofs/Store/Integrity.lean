import DocumentApi.Proofs.Store.ReadBack

/-!
Documents keep identifiers of their own, whatever is called and whatever fails, over any collection
that is lawful. `Lawful` says what a call of the store may answer and leave behind: it adds, changes
or removes at most one document, the one that its codec makes of the identifier, and a call that
fails leaves the documents alone. It is read off `Change`, and holds of every call of a run since
every call keeps the identifiers distinct. Main statement: `lawful_run`.
-/

set_option autoImplicit false

namespace DocumentApi.Collection

variable {σ : Type}

/-! What a call may answer and leave. -/

/-- The document has the identifier that the codec makes of a text. -/
def Selected (c : Collection σ) (codec : IdCodec) (id : String) (document : Document) : Prop :=
  ∃ value, c.decode codec id = .ok value ∧ document.get? "_id" = some value

/-- One of the documents that may, if any, gives way to those put in its place. -/
def ReplacedOne (may : Document → Prop) (size : Nat) (before after : List Document) : Prop :=
  after = before ∨
    ∃ front document put back, may document ∧ List.length put = size ∧
      before = front ++ document :: back ∧ after = front ++ put ++ back

/-- What an update may make of the documents: none is renamed. -/
structure PermittedUpdate (may : Document → Prop) (patch : Record Value)
    (before after : List Document) : Prop where
  ids : ids after = ids before
  replaced : ReplacedOne may 1 before after
  unchanged : (∀ field ∈ patch, field.1 = "_id") → after = before

/-- What a call may make of the documents. -/
def Permitted (c : Collection σ) (codec : IdCodec) (before after : List Document) :
    StoreCall → Prop
  | .find _ | .findById .. | .count _ => after = before
  | .insert _ => after = before ∨ ∃ stored, after = before ++ [stored]
  | .updateById id patch => PermittedUpdate (c.Selected codec id) patch before after
  | .deleteById id => ReplacedOne (c.Selected codec id) 0 before after

/-- The number of documents that a text selects is one or none. -/
def Counted (c : Collection σ) (codec : IdCodec) (id : String) (documents : List Document)
    (n : Int) : Prop :=
  (n = 1 ∧ ∃ document ∈ documents, c.Selected codec id document) ∨
    (n = 0 ∧ ∀ document ∈ documents, ¬ c.Selected codec id document)

/-- What a call may answer and leave of a collection. -/
structure Lawful (c : Collection σ) (held : σ → List Document) (codec : IdCodec)
    (call : StoreCall) (before : σ) (result : Except StoreFault StoreReply × σ) : Prop where
  distinct : (ids (held result.2)).Nodup
  failed : ∀ fault, result.1 = .error fault → held result.2 = held before
  /-- A call fails only if its identifier is refused, or the one call that it makes fails. -/
  cause : ∀ fault, result.1 = .error fault → call.made c codec = .error fault ∨
    ∃ made, call.made c codec = .ok made ∧ (outcome (c.perform made) before).1 = .error fault
  documents : Permitted c codec (held before) (held result.2) call
  report : ∀ id patch update, call = .updateById id patch → result.1 = .ok (.updated update) →
    Counted c codec id (held before) update.matched

variable {c : Collection σ} {held : σ → List Document} {codec : IdCodec}

/-! Selection. -/

section Selection
variable {id : String} {value : Value} (h : c.decode codec id = .ok value)
include h

theorem selected_iff (document : Document) :
    c.Selected codec id document ↔ document.get? "_id" = some value := by
  simp [Selected, h]

theorem exists_selected_iff (documents : List Document) :
    (∃ document ∈ documents, c.Selected codec id document) ↔ some value ∈ ids documents := by
  simp only [selected_iff h, ids, List.mem_map]

theorem counted_of_not_mem {documents : List Document} (hnone : some value ∉ ids documents) :
    Counted c codec id documents 0 :=
  Or.inr ⟨rfl, fun document hd hs =>
    hnone ((exists_selected_iff h documents).mp ⟨document, hd, hs⟩)⟩

theorem counted_of_mem {documents : List Document} (hsome : some value ∈ ids documents) :
    Counted c codec id documents 1 :=
  Or.inl ⟨rfl, (exists_selected_iff h documents).mpr hsome⟩

/-- Documents with identifiers of their own are selected one at a time. -/
theorem counted_count {documents : List Document} (hdistinct : (ids documents).Nodup) :
    Counted c codec id documents ((ids documents).count (some value)) := by
  by_cases hmem : some value ∈ ids documents
  · rw [List.count_eq_one_of_mem hdistinct hmem]
    exact counted_of_mem h hmem
  · rw [List.count_eq_zero_of_not_mem hmem]
    exact counted_of_not_mem h hmem

theorem Updates.permitted {patch : Record Value} {result : UpdateResult}
    {before after : List Document} (hpatch : (patch.erase "_id").isEmpty = false)
    (hupdate : Updates KeepsId value before result after) :
    PermittedUpdate (c.Selected codec id) patch before after := by
  refine ⟨hupdate.ids_eq, ?_, fun hid => ?_⟩
  · cases hupdate with
    | absent _ => exact Or.inl rfl
    | @changed front back _ document put _ hid hkeeps hbefore hafter =>
      refine Or.inr ⟨front, document, [put], back, (selected_iff h document).mpr hid, rfl, hbefore,
        ?_⟩
      rw [hafter, List.append_assoc]
      rfl
  · have hempty : patch.erase "_id" = [] := by simpa [Record.erase] using hid
    rw [hempty] at hpatch
    cases hpatch

theorem Deletes.permitted {n : Int} {before after : List Document}
    (hdelete : Deletes value before n after) :
    ReplacedOne (c.Selected codec id) 0 before after := by
  cases hdelete with
  | absent _ => exact Or.inl rfl
  | removed hid hbefore hafter =>
    refine Or.inr ⟨_, _, [], _, (selected_iff h _).mpr hid, rfl, hbefore, ?_⟩
    rw [hafter, List.append_nil]

end Selection

/-! Calls. -/

theorem Change.permitted {call : StoreCall} {before after : List Document}
    (h : Change c codec before call after) : Permitted c codec before after call := by
  cases h with
  | unchanged call =>
    cases call with
    | find request => exact rfl
    | findById id fields => exact rfl
    | count query => exact rfl
    | insert document => exact Or.inl rfl
    | updateById id patch => exact ⟨rfl, Or.inl rfl, fun _ => rfl⟩
    | deleteById id => exact Or.inl rfl
  | added h =>
    obtain ⟨stored, -, -, hafter⟩ := h.stored
    exact Or.inr ⟨stored, hafter⟩
  | changed hid hpatch h => exact h.permitted hid hpatch
  | removed hid h => exact h.permitted hid

/-- The two ways of an update count alike: one counts what the other would change. -/
theorem counted_of_updateById (hc : c.Laws held) {s after : σ} (h : (ids (held s)).Nodup)
    {id : String} {patch : Record Value} {result : UpdateResult}
    (hrun : outcome ((c.store codec).updateById id patch) s = (.ok result, after)) :
    Counted c codec id (held s) result.matched := by
  cases hid : c.decode codec id with
  | error fault =>
    change outcome (c.selector codec id >>= _) s = _ at hrun
    rw [selector_of_error hid] at hrun
    cases hrun
  | ok value =>
    have hkey := isKey_of_decode hid
    rw [store_updateById hid] at hrun
    split at hrun
    · rcases hcount : outcome (c.count (byId value)) s with ⟨answer, last⟩
      rw [outcome_map, hcount] at hrun
      cases answer with
      | error fault => cases hrun
      | ok n =>
        cases hrun
        rw [hc.counted value s n _ hkey hcount]
        exact counted_count hid h
    · have hupdate := hc.updated value _ s result after hkey
        (Record.not_mem_names_erase patch "_id") hrun
      generalize held after = left at hupdate
      cases hupdate with
      | absent hnone => exact counted_of_not_mem hid hnone
      | changed hown hkeeps hbefore hafter =>
        refine counted_of_mem hid ?_
        rw [hbefore, ← hown]
        exact List.mem_map_of_mem (List.mem_append_right _ List.mem_cons_self)

theorem held_of_failed (hc : c.Laws held) {call : StoreCall} {s : σ} {fault : StoreFault}
    (h : (outcome (call.perform (c.store codec)) s).1 = .error fault) :
    held (call.after (c.store codec) s) = held s := by
  rcases perform_eq_error_iff.mp h with hrefused | ⟨made, hmade, hfails⟩
  · rw [after_of_refused hrefused]
  · rw [after_of_made hmade]
    exact hc.failed made s fault hfails

theorem lawful_perform (hc : c.Laws held) (call : StoreCall) {s : σ} (h : (ids (held s)).Nodup) :
    c.Lawful held codec call s (outcome (call.perform (c.store codec)) s) where
  distinct := (change_after hc codec call s).nodup_ids h
  failed fault hfails := held_of_failed hc hfails
  cause fault hfails := perform_eq_error_iff.mp hfails
  documents := (change_after hc codec call s).permitted
  report id patch update hcall hanswer := by
    subst hcall
    obtain ⟨result, hresult, hsame⟩ := fst_outcome_map_eq_ok_iff.mp hanswer
    cases hsame
    exact counted_of_updateById hc h (Prod.ext hresult rfl)

/-- Whatever was called before of a lawful collection, and whatever of it has failed: identifiers are
distinct, and the next call is lawful. -/
theorem lawful_run (hc : c.Laws held) (codec : IdCodec) {s : σ} (h : (ids (held s)).Nodup)
    (calls : List StoreCall) (call : StoreCall) :
    let before := StoreCall.run (c.store codec) calls s
    (ids (held before)).Nodup ∧
      c.Lawful held codec call before (outcome (call.perform (c.store codec)) before) := by
  intro before
  have hbefore : (ids (held before)).Nodup :=
    StoreCall.run_preserves (fun _ => True) (fun s => (ids (held s)).Nodup)
      (fun call s _ hs => (change_after hc codec call s).nodup_ids hs) (fun _ _ => trivial) h
  exact ⟨hbefore, lawful_perform hc call hbefore⟩

/-! A run in which documents clash, and none is removed. -/

open Memory

/-- Nothing can be removed. -/
def keeping : Disturbance := ⟨some (.deleteOne, .other "Timeout" "timed out"), none, false⟩

def contested : Memory :=
  ofDocuments [[("_id", .string "tom"), ("age", .int 3)], [("_id", .objectId (ObjectId.ofNat 1))]]
    ["age"]

def contestedCalls : List StoreCall :=
  [.updateById "tom" [("age", .int 4)], .insert [("_id", .string "tom")], .insert [("age", .int 4)],
    .deleteById "tom",
    .updateById "000000000000000000000001" [("_id", .string "kit"), ("age", .int 5)]]

theorem lawful_run_contested :
    let c := Memory.collection keeping
    let before := StoreCall.run (c.store .objectIdOrText) contestedCalls contested
    let call := .updateById "tom" [("_id", .int 7)]
    let result := outcome (StoreCall.perform (c.store .objectIdOrText) call) before
    (ids contested.documents).Nodup ∧
    before.documents = [[("_id", .string "tom"), ("age", .int 4)],
      [("_id", .objectId (ObjectId.ofNat 1)), ("age", .int 5)]] ∧
    result.1 = .ok (.updated ⟨1, 0⟩) ∧ result.2.documents = before.documents ∧
    c.Lawful Memory.documents .objectIdOrText call before result := by
  intro c before call result
  have hdistinct : (ids contested.documents).Nodup := by decide +kernel
  have hlaws : c.Laws Memory.documents := laws keeping ⟨rfl, rfl⟩
  obtain ⟨-, hlawful⟩ := lawful_run hlaws .objectIdOrText hdistinct contestedCalls call
  have hsame := hlawful.documents.unchanged (by simp)
  exact ⟨hdistinct, by decide +kernel, by decide +kernel, hsame, hlawful⟩

end DocumentApi.Collection
