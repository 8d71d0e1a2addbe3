import DocumentApi.Proofs.Store.Laws

/-!
Runs of the store over a lawful collection. `Change` lists what a call can make of the documents:
nothing, one document more at the end, one changed in its place, or one fewer (`change_after`). What
is proved of the documents after any run is proved by cases on it.
-/

set_option autoImplicit false

namespace DocumentApi.Collection

variable {σ : Type} {c : Collection σ} {held : σ → List Document} {codec : IdCodec}

theorem isKey_of_decode {id : String} {value : Value} (h : c.decode codec id = .ok value) :
    IsKey value := by
  unfold decode IdCodec.decode at h
  cases codec with
  | text =>
    cases h
    trivial
  | objectId =>
    cases hread : c.readId id with
    | ok found =>
      rw [hread] at h
      cases h
      trivial
    | error fault =>
      rw [hread] at h
      cases h
  | objectIdOrText =>
    cases hread : c.readId id with
    | ok found =>
      simp only [hread, Except.ok.injEq] at h
      subst h
      split <;> trivial
    | error fault =>
      rw [hread] at h
      cases h
      trivial

/-- Looking for a document leaves those that are held, whether its identifier is one or not. -/
theorem Reads.findById (hc : c.Reads held) {id : String} {fields : Option (List String)} {s last : σ}
    {result : Except StoreFault (Option Document)}
    (h : outcome ((c.store codec).findById id fields) s = (result, last)) :
    held last = held s := by
  have hcall := outcome_map StoreReply.document ((c.store codec).findById id fields) s
  rw [h] at hcall
  have hlast : (StoreCall.findById id fields).after (c.store codec) s = last :=
    congrArg Prod.snd hcall
  rw [← hlast]
  cases hmade : (StoreCall.findById id fields).made c codec with
  | error fault => rw [after_of_refused hmade]
  | ok made =>
    obtain ⟨value, -, rfl⟩ := exceptMap_eq_ok_iff.mp hmade
    rw [after_of_made hmade, hc _ _ rfl]

/-! Reading in states that answer. -/

section Answered
variable {works : σ → Prop} (hc : c.Laws held) (hworks : c.Available works) {s : σ} (hs : works s)
include hc hworks hs

theorem exists_count {value : Value} (hkey : IsKey value) :
    ∃ n after, outcome (c.count (byId value)) s = (.ok n, after) ∧
      n = (ids (held s)).count (some value) ∧ held after = held s ∧ works after := by
  obtain ⟨n, after, hrun⟩ := hworks.counts value s hkey hs
  have hafter : c.after (.count (byId value)) s = after := after_of_outcome rfl hrun
  exact ⟨n, after, hrun, hc.counted value s n after hkey hrun, hafter ▸ hc.reads _ s rfl,
    hafter ▸ hworks.kept _ s rfl hs⟩

theorem exists_findById {id : String} {value : Value} (hid : c.decode codec id = .ok value) :
    ∃ found after, outcome ((c.store codec).findById id none) s =
        (.ok (found.map IdCodec.shownDocument), after) ∧
      Finds value (held s) found ∧ held after = held s ∧ works after := by
  have hkey := isKey_of_decode hid
  obtain ⟨found, after, hrun⟩ := hworks.findsOne value s hkey hs
  have hafter : c.after (.findOne (byId value) none) s = after := after_of_outcome rfl hrun
  have hfields : StoreQuery.ofFields none = none := rfl
  refine ⟨found, after, ?_, hc.found value s found after hkey hrun, hafter ▸ hc.reads _ s rfl,
    hafter ▸ hworks.kept _ s rfl hs⟩
  rw [store_findById hid, outcome_map, hfields, hrun]
  rfl

end Answered

/-! What a call makes of the documents. -/

/-- What a call of the store can make of the documents that are held. -/
inductive Change (c : Collection σ) (codec : IdCodec) (before : List Document) :
    StoreCall → List Document → Prop where
  | unchanged (call : StoreCall) : Change c codec before call before
  | added {document : Document} {id : Value} {after : List Document}
      (h : Inserts (withoutNullId document) id before after) :
    Change c codec before (.insert document) after
  | changed {id : String} {patch : Record Value} {value : Value} {result : UpdateResult}
      {after : List Document} (hid : c.decode codec id = .ok value)
      (hpatch : (patch.erase "_id").isEmpty = false)
      (h : Updates KeepsId value before result after) :
    Change c codec before (.updateById id patch) after
  | removed {id : String} {value : Value} {n : Int} {after : List Document}
      (hid : c.decode codec id = .ok value) (h : Deletes value before n after) :
    Change c codec before (.deleteById id) after

/-- What holds where a call succeeds, and where it changes nothing, holds after the call. -/
theorem Laws.held_after (hc : c.Laws held) {α : Type} {call : Call} {action : StoreAction σ α}
    (hcall : c.perform call = effectOf action) {post : List Document → Prop} {s : σ}
    (hok : ∀ a after, outcome action s = (.ok a, after) → post (held after))
    (hsame : post (held s)) : post (held (c.after call s)) := by
  rcases hrun : outcome action s with ⟨result, last⟩
  have hlast := after_of_outcome hcall hrun
  cases result with
  | ok a => exact hlast ▸ hok a last hrun
  | error fault =>
    have hfails : (outcome (c.perform call) s).1 = .error fault := by
      rw [hcall, fst_outcome_effectOf_eq_error_iff, hrun]
    rw [hc.failed call s fault hfails]
    exact hsame

theorem change_after (hc : c.Laws held) (codec : IdCodec) (call : StoreCall) (s : σ) :
    Change c codec (held s) call (held (call.after (c.store codec) s)) := by
  cases hmade : call.made c codec with
  | error fault =>
    rw [after_of_refused hmade]
    exact .unchanged call
  | ok made =>
    rw [after_of_made hmade]
    have hread (h : made.kind.isRead = true) :
        Change c codec (held s) call (held (c.after made s)) := by
      rw [hc.reads made s h]
      exact .unchanged call
    cases call with
    | find request =>
      cases hmade
      exact hread rfl
    | count query =>
      cases hmade
      exact hread rfl
    | findById id fields =>
      obtain ⟨value, -, rfl⟩ := exceptMap_eq_ok_iff.mp hmade
      exact hread rfl
    | insert document =>
      cases hmade
      refine hc.held_after rfl ?_ (.unchanged _)
      intro id after hrun
      exact .added (hc.inserted _ s id after hrun)
    | updateById id patch =>
      obtain ⟨value, hid, rfl⟩ := exceptMap_eq_ok_iff.mp hmade
      cases hpatch : (patch.erase "_id").isEmpty with
      | true =>
        apply hread
        rw [updateCall, hpatch]
        rfl
      | false =>
        have hcall : c.perform (updateCall value (patch.erase "_id")) =
            effectOf (c.updateOne (byId value) (setting (patch.erase "_id"))) := by
          rw [updateCall, hpatch]
          rfl
        refine hc.held_after hcall ?_ (.unchanged _)
        intro result after hrun
        exact .changed hid hpatch (hc.updated value _ s result after (isKey_of_decode hid)
          (Record.not_mem_names_erase patch "_id") hrun)
    | deleteById id =>
      obtain ⟨value, hid, rfl⟩ := exceptMap_eq_ok_iff.mp hmade
      refine hc.held_after rfl ?_ (.unchanged _)
      intro n after hrun
      exact .removed hid (hc.deleted value s n after (isKey_of_decode hid) hrun)

end DocumentApi.Collection
