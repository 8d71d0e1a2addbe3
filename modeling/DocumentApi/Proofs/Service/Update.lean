import DocumentApi.Proofs.Service.Session
import DocumentApi.Service.Write

/-!
Runs of an update, from the request to its end. `UpdateRun` lists the ways in which one can go;
everything that is refused before the store is asked to write is one answer, `accepted`.
-/

set_option autoImplicit false

namespace DocumentApi

namespace Service

variable {σ : Type}

/-- The fields that a request sets and the representation of the response, unless it is refused. -/
def accepted (s : Service σ) (r : UpdateRequest) : Answer (Document × Representation) := do
  s.offered .update
  let (parse, representation) ← s.parserFor .parseUpdate r.contentType r.accept
  let patch ← parse ⟨r.body, s.resourceType, r.id⟩ >>= requireObject
  return (patch, representation)

def rendered (s : Service σ) (r : UpdateRequest) (representation : Representation)
    (document : Document) : Answer Response := do
  let url ← RelativeUrl.ofText r.url
  let render ← s.registry.renderer .renderOne representation.contentType
  let body ← render ⟨r.id, s.resourceType, (url.keepParams ["fields"]).text, document⟩
  return ⟨200, body, some representation.contentType, none⟩

def shownFields (s : Service σ) (r : UpdateRequest) : Answer (Option (List String)) :=
  s.projection (s.querySettings.fields r.params)

structure Written (s : Service σ) (r : UpdateRequest) (store : σ) where
  patch : Document
  representation : Representation
  result : UpdateResult
  after : σ
  accepted : s.accepted r = .ok (patch, representation)
  answered : outcome (s.store.updateById r.id (identified r.id patch)) store = (.ok result, after)

structure ToShow (s : Service σ) (r : UpdateRequest) (store : σ) extends Written s r store where
  found : result.matched ≠ 0
  modified : result.modified ≠ 0
  wanted : r.noContent = false
  readable : s.options.disabled.read = false

/-- How an update ends, and what it leaves of the store. -/
inductive UpdateRun (s : Service σ) (r : UpdateRequest) (store : σ) : Answer Response → σ → Prop where
  | refused (failure : Failure) (h : s.accepted r = .error failure) :
    UpdateRun s r store (.error failure) store
  | writeFault (patch : Document) (representation : Representation) (fault : StoreFault) (after : σ)
      (h : s.accepted r = .ok (patch, representation))
      (hw : outcome (s.store.updateById r.id (identified r.id patch)) store = (.error fault, after)) :
    UpdateRun s r store (.error (s.failureOf fault)) after
  | absent (w : Written s r store) (h : w.result.matched = 0) :
    UpdateRun s r store (.error (s.missing r.id "update")) w.after
  | silent (w : Written s r store) (h : w.result.matched ≠ 0)
      (hq : w.result.modified = 0 ∨ r.noContent = true ∨ s.options.disabled.read = true) :
    UpdateRun s r store (.ok Response.noContent) w.after
  | fieldsRefused (w : ToShow s r store) (failure : Failure) (h : s.shownFields r = .error failure) :
    UpdateRun s r store (.error failure) w.after
  | readFault (w : ToShow s r store) (fields : Option (List String)) (fault : StoreFault) (last : σ)
      (h : s.shownFields r = .ok fields)
      (hr : outcome (s.store.findById r.id fields) w.after = (.error fault, last)) :
    UpdateRun s r store (.error (s.failureOf fault)) last
  | vanished (w : ToShow s r store) (fields : Option (List String)) (last : σ)
      (h : s.shownFields r = .ok fields)
      (hr : outcome (s.store.findById r.id fields) w.after = (.ok none, last)) :
    UpdateRun s r store (.error (s.missing r.id "update")) last
  | shown (w : ToShow s r store) (fields : Option (List String)) (document : Document) (last : σ)
      (h : s.shownFields r = .ok fields)
      (hr : outcome (s.store.findById r.id fields) w.after = (.ok (some document), last)) :
    UpdateRun s r store (s.rendered r w.representation document) last

/-- What is refused before the store is asked leaves the store as it was. -/
theorem UpdateRun.of_refused {s : Service σ} {r : UpdateRequest} {store after : σ}
    {answer : Answer Response} (hrun : UpdateRun s r store answer after) {failure : Failure}
    (h : s.accepted r = .error failure) : answer = .error failure ∧ after = store := by
  cases hrun with
  | refused other hrefused =>
    cases h.symm.trans hrefused
    exact ⟨rfl, rfl⟩
  | writeFault patch representation fault after hok hw => cases h.symm.trans hok
  | absent w hm => cases h.symm.trans w.accepted
  | silent w hm hq => cases h.symm.trans w.accepted
  | fieldsRefused w failure hf => cases h.symm.trans w.accepted
  | readFault w fields fault last hf hr => cases h.symm.trans w.accepted
  | vanished w fields last hf hr => cases h.symm.trans w.accepted
  | shown w fields document last hf hr => cases h.symm.trans w.accepted

/-- An update that finds a document and changes nothing in it is answered without one. -/
theorem UpdateRun.of_unmodified {s : Service σ} {r : UpdateRequest} {store after : σ}
    {answer : Answer Response} (hrun : UpdateRun s r store answer after) {patch : Document}
    {representation : Representation} (h : s.accepted r = .ok (patch, representation))
    {result : UpdateResult} {left : σ}
    (hw : outcome (s.store.updateById r.id (identified r.id patch)) store = (.ok result, left))
    (hmatched : result.matched ≠ 0) (hmodified : result.modified = 0) :
    answer = .ok Response.noContent ∧ after = left := by
  have hsame : ∀ w : Written s r store, w.result = result ∧ w.after = left := by
    rintro ⟨patch', representation', result', left', haccepted, hanswered⟩
    cases h.symm.trans haccepted
    cases hw.symm.trans hanswered
    exact ⟨rfl, rfl⟩
  have hnothing : ∀ w : ToShow s r store, False := fun w =>
    w.modified ((hsame w.toWritten).1 ▸ hmodified)
  cases hrun with
  | refused failure hrefused => cases h.symm.trans hrefused
  | writeFault patch' representation' fault after haccepted hfault =>
    cases h.symm.trans haccepted
    cases hw.symm.trans hfault
  | absent w hm => exact absurd ((hsame w).1 ▸ hm) hmatched
  | silent w hm hq => exact ⟨rfl, (hsame w).2⟩
  | fieldsRefused w failure hf => exact (hnothing w).elim
  | readFault w fields fault last hf hr => exact (hnothing w).elim
  | vanished w fields last hf hr => exact (hnothing w).elim
  | shown w fields document last hf hr => exact (hnothing w).elim

theorem ends_showUpdated {s : Service σ} {r : UpdateRequest} {store : σ} (w : ToShow s r store) :
    Ends (s.showUpdated r w.representation) w.after (UpdateRun s r store) := by
  refine .answer_bind (.ofAnswer (s.shownFields r)) ?_ ?_
  · intro fields hf
    refine .callStore_bind s ?_ ?_
    · intro found last hr
      cases found with
      | none => exact .answer (.throw _) (.vanished w fields last hf hr)
      | some document =>
        have hrendered : Answers (σ := σ) _ (s.rendered r w.representation document) :=
          .bind (.ofAnswer (RelativeUrl.ofText r.url)) fun url =>
            .bind (.ofAnswer (s.registry.renderer .renderOne w.representation.contentType)) fun _ =>
              .bind (.ofAnswer _) fun _ => .pure _
        exact .answer hrendered (.shown w fields document last hf hr)
    · intro fault last hr
      exact .readFault w fields fault last hf hr
  · intro failure hf
    exact .fieldsRefused w failure hf

theorem ends_written {s : Service σ} {r : UpdateRequest} {store : σ} {patch : Document}
    {representation : Representation} (h : s.accepted r = .ok (patch, representation)) :
    Ends (do
      let result ← s.callStore (s.store.updateById r.id (identified r.id patch))
      if result.matched = 0 then throw (s.missing r.id "update")
      if result.modified = 0 || r.noContent || s.options.disabled.read then return Response.noContent
      s.showUpdated r representation) store (UpdateRun s r store) := by
  refine .callStore_bind s ?_ ?_
  · intro result after hw
    let w : Written s r store := ⟨patch, representation, result, after, h, hw⟩
    by_cases hm : result.matched = 0
    · rw [if_pos hm]
      exact .answer (.throw _) (.absent w hm)
    · rw [if_neg hm]
      by_cases hq : result.modified = 0 ∨ r.noContent = true ∨ s.options.disabled.read = true
      · rw [if_pos (by simpa [or_assoc] using hq)]
        exact .answer (.pure _) (.silent w hm hq)
      · rw [if_neg (by simpa [or_assoc] using hq)]
        simp only [not_or, Bool.not_eq_true] at hq
        exact ends_showUpdated ⟨w, hm, hq.1, hq.2.1, hq.2.2⟩
  · intro fault after hw
    exact .writeFault patch representation fault after h hw

theorem ends_update (s : Service σ) (r : UpdateRequest) (store : σ) :
    Ends (s.update r) store (UpdateRun s r store) := by
  refine .logged s _ ?_
  refine .answer_bind (.ensureEnabled s .update) ?_ ?_
  · intro _ henabled
    refine .answer_bind (.bodyParser s _ _ _) ?_ ?_
    · rintro ⟨parse, representation⟩ hparser
      have haccepted : s.accepted r = (parse ⟨r.body, s.resourceType, r.id⟩ >>= requireObject) >>=
          fun patch => pure (patch, representation) := by
        rw [accepted, henabled, Answer.ok_bind, hparser]
        rfl
      refine .answer_bind (.ofAnswer _) ?_ ?_
      · intro patch hpatch
        apply ends_written
        rw [haccepted, hpatch]
        rfl
      · intro failure hpatch
        apply UpdateRun.refused
        rw [haccepted, hpatch, Answer.error_bind]
    · intro failure hparser
      apply UpdateRun.refused
      rw [accepted, henabled, Answer.ok_bind, hparser, Answer.error_bind]
  · intro failure henabled
    apply UpdateRun.refused
    rw [accepted, henabled, Answer.error_bind]

end Service

end DocumentApi
