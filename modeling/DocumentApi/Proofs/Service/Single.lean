import DocumentApi.Proofs.Service.Session
import DocumentApi.Service.Read
import DocumentApi.Service.Write

/-!
Runs of the requests for a single document besides updates: to get, to create and to delete one. For
each, what is refused before the store is asked is one answer, and what is made of the answer of the
store is another.
-/

set_option autoImplicit false

namespace DocumentApi

namespace Service

variable {σ : Type}

/-! Getting a document. -/

/-- The fields that a request asks for and the representation of the response, unless refused. -/
def askedFor (s : Service σ) (r : GetRequest) : Answer (Option (List String) × Representation) := do
  s.offered .get
  let representation ← (s.registry.negotiate .renderOne (.ofString? r.accept)).1
  let fields ← s.projection (s.querySettings.fields r.params)
  return (fields, representation)

theorem askedFor_eq_ok {s : Service σ} {r : GetRequest} {fields : Option (List String)}
    {representation : Representation} :
    s.askedFor r = .ok (fields, representation) ↔
      s.offered .get = .ok () ∧
      (s.registry.negotiate .renderOne (.ofString? r.accept)).1 = .ok representation ∧
      s.projection (s.querySettings.fields r.params) = .ok fields := by
  constructor
  · intro h
    obtain ⟨_, hoffered, h⟩ := Answer.bind_eq_ok.mp h
    obtain ⟨_, hchosen, h⟩ := Answer.bind_eq_ok.mp h
    obtain ⟨_, hfields, h⟩ := Answer.bind_eq_ok.mp h
    cases h
    exact ⟨hoffered, hchosen, hfields⟩
  · rintro ⟨hoffered, hchosen, hfields⟩
    rw [askedFor, hoffered, Answer.ok_bind, hchosen, Answer.ok_bind, hfields]
    rfl

def shownOne (s : Service σ) (r : GetRequest) (representation : Representation)
    (document : Document) : Answer Response := do
  let render ← s.registry.renderer .renderOne representation.contentType
  let body ← render ⟨r.id, s.resourceType, r.url, document⟩
  return ⟨200, body, some representation.contentType, none⟩

/-- How a request for a document ends, and what it leaves of the store. -/
inductive GetRun (s : Service σ) (r : GetRequest) (store : σ) : Answer Response → σ → Prop where
  | refused (failure : Failure) (h : s.askedFor r = .error failure) :
    GetRun s r store (.error failure) store
  | readFault (fields : Option (List String)) (representation : Representation)
      (fault : StoreFault) (after : σ) (h : s.askedFor r = .ok (fields, representation))
      (hr : outcome (s.store.findById r.id fields) store = (.error fault, after)) :
    GetRun s r store (.error (s.failureOf fault)) after
  | absent (fields : Option (List String)) (representation : Representation) (after : σ)
      (h : s.askedFor r = .ok (fields, representation))
      (hr : outcome (s.store.findById r.id fields) store = (.ok none, after)) :
    GetRun s r store (.error (s.missing r.id "")) after
  | shown (fields : Option (List String)) (representation : Representation) (document : Document)
      (after : σ) (h : s.askedFor r = .ok (fields, representation))
      (hr : outcome (s.store.findById r.id fields) store = (.ok (some document), after)) :
    GetRun s r store (s.shownOne r representation document) after

theorem ends_get (s : Service σ) (r : GetRequest) (store : σ) :
    Ends (s.get r) store (GetRun s r store) := by
  refine .logged s _ ?_
  refine .answer_bind (.ensureEnabled s .get) ?_ ?_
  · intro _ henabled
    refine .answer_bind (.negotiate s _ _) ?_ ?_
    · intro representation hnegotiated
      have hasked : s.askedFor r = s.projection (s.querySettings.fields r.params) >>=
          fun fields => pure (fields, representation) := by
        rw [askedFor, henabled, Answer.ok_bind, hnegotiated, Answer.ok_bind]
      refine .answer_bind (.ofAnswer _) ?_ ?_
      · intro fields hfields
        rw [hfields, Answer.ok_bind] at hasked
        refine .callStore_bind s ?_ ?_
        · intro found after hr
          cases found with
          | none => exact .answer (.throw _) (.absent fields representation after hasked hr)
          | some document =>
            have hshown : Answers (σ := σ) _ (s.shownOne r representation document) :=
              .bind (.ofAnswer (s.registry.renderer .renderOne representation.contentType)) fun _ =>
                .bind (.ofAnswer _) fun _ => .pure _
            exact .answer hshown (.shown fields representation document after hasked hr)
        · intro fault after hr
          exact .readFault fields representation fault after hasked hr
      · intro failure hfields
        apply GetRun.refused
        rw [hasked, hfields, Answer.error_bind]
    · intro failure hnegotiated
      apply GetRun.refused
      rw [askedFor, henabled, Answer.ok_bind, hnegotiated, Answer.error_bind]
  · intro failure henabled
    apply GetRun.refused
    rw [askedFor, henabled, Answer.error_bind]

/-- An answer that shows a document shows what the store found. -/
theorem GetRun.of_ok {s : Service σ} {r : GetRequest} {store after : σ} {answer : Answer Response}
    (hrun : GetRun s r store answer after) {response : Response} (hok : answer = .ok response) :
    ∃ fields representation document, s.askedFor r = .ok (fields, representation) ∧
      outcome (s.store.findById r.id fields) store = (.ok (some document), after) ∧
      s.shownOne r representation document = .ok response := by
  cases hrun with
  | refused failure h => cases hok
  | readFault fields representation fault after h hr => cases hok
  | absent fields representation after h hr => cases hok
  | shown fields representation document after h hr =>
    exact ⟨fields, representation, document, h, hr, hok⟩

/-! Creating a document. -/

/-- The document that a request asks to store and the representation of the response, unless
refused. -/
def drafted (s : Service σ) (r : CreateRequest) : Answer (Document × Representation) := do
  s.offered .create
  let (parse, representation) ← s.parserFor .parseCreate r.contentType r.accept
  let document ← parse ⟨r.body, s.resourceType⟩ >>= requireObject
  return (document, representation)

def announced (s : Service σ) (r : CreateRequest) (representation : Representation)
    (created : Document) : Answer Response := do
  let id ← s.idOf created
  let location ← locationOf r.url id
  if s.options.disabled.read then return { Response.noContent with location := some location }
  let render ← s.registry.renderer .renderOne representation.contentType
  let body ← render ⟨id, s.resourceType, location, created⟩
  return ⟨201, body, some representation.contentType, some location⟩

/-- How a request to create a document ends, and what it leaves of the store. -/
inductive CreateRun (s : Service σ) (r : CreateRequest) (store : σ) : Answer Response → σ → Prop where
  | refused (failure : Failure) (h : s.drafted r = .error failure) :
    CreateRun s r store (.error failure) store
  | writeFault (document : Document) (representation : Representation) (fault : StoreFault)
      (after : σ) (h : s.drafted r = .ok (document, representation))
      (hw : outcome (s.store.insert document) store = (.error fault, after)) :
    CreateRun s r store (.error (s.failureOf fault)) after
  | created (document : Document) (representation : Representation) (created : Document) (after : σ)
      (h : s.drafted r = .ok (document, representation))
      (hw : outcome (s.store.insert document) store = (.ok created, after)) :
    CreateRun s r store (s.announced r representation created) after

theorem answers_announced (s : Service σ) (r : CreateRequest) (representation : Representation)
    (created : Document) :
    Answers (σ := σ) (do
      let id ← ofAnswer (s.idOf created)
      let location ← ofAnswer (locationOf r.url id)
      addLog [⟨.info, "Created " ++ s.entity ++ " " ++ id⟩]
      if s.options.disabled.read then return { Response.noContent with location := some location }
      let render ← ofAnswer (s.registry.renderer .renderOne representation.contentType)
      let body ← ofAnswer (render ⟨id, s.resourceType, location, created⟩)
      return ⟨201, body, some representation.contentType, some location⟩)
      (s.announced r representation created) := by
  refine .bind (.ofAnswer (s.idOf created)) fun id => ?_
  refine .bind (.ofAnswer (locationOf r.url id)) fun location => ?_
  refine .bind_ok (.addLog _) ?_
  split
  · exact .pure _
  · exact .bind (.ofAnswer (s.registry.renderer .renderOne representation.contentType)) fun _ =>
      .bind (.ofAnswer _) fun _ => .pure _

theorem ends_create (s : Service σ) (r : CreateRequest) (store : σ) :
    Ends (s.create r) store (CreateRun s r store) := by
  refine .logged s _ ?_
  refine .answer_bind (.ensureEnabled s .create) ?_ ?_
  · intro _ henabled
    refine .answer_bind (.bodyParser s _ _ _) ?_ ?_
    · rintro ⟨parse, representation⟩ hparser
      have hdrafted : s.drafted r = (parse ⟨r.body, s.resourceType⟩ >>= requireObject) >>=
          fun document => pure (document, representation) := by
        rw [drafted, henabled, Answer.ok_bind, hparser]
        rfl
      refine .answer_bind (.ofAnswer _) ?_ ?_
      · intro document hdocument
        rw [hdocument, Answer.ok_bind] at hdrafted
        refine .callStore_bind s ?_ ?_
        · intro created after hw
          exact .answer (answers_announced s r representation created)
            (.created document representation created after hdrafted hw)
        · intro fault after hw
          exact .writeFault document representation fault after hdrafted hw
      · intro failure hdocument
        apply CreateRun.refused
        rw [hdrafted, hdocument, Answer.error_bind]
    · intro failure hparser
      apply CreateRun.refused
      rw [drafted, henabled, Answer.ok_bind, hparser, Answer.error_bind]
  · intro failure henabled
    apply CreateRun.refused
    rw [drafted, henabled, Answer.error_bind]

/-! Deleting a document. -/

/-- How a request to delete a document ends, and what it leaves of the store. -/
inductive DeleteRun (s : Service σ) (id : String) (store : σ) : Answer Response → σ → Prop where
  | refused (failure : Failure) (h : s.offered .delete = .error failure) :
    DeleteRun s id store (.error failure) store
  | fault (fault : StoreFault) (after : σ) (h : s.offered .delete = .ok ())
      (hd : outcome (s.store.deleteById id) store = (.error fault, after)) :
    DeleteRun s id store (.error (s.failureOf fault)) after
  | absent (after : σ) (h : s.offered .delete = .ok ())
      (hd : outcome (s.store.deleteById id) store = (.ok 0, after)) :
    DeleteRun s id store (.error (s.missing id "delete")) after
  | deleted (removed : Int) (after : σ) (h : s.offered .delete = .ok ()) (hne : removed ≠ 0)
      (hd : outcome (s.store.deleteById id) store = (.ok removed, after)) :
    DeleteRun s id store (.ok Response.noContent) after

theorem ends_delete (s : Service σ) (id : String) (store : σ) :
    Ends (s.delete id) store (DeleteRun s id store) := by
  refine .logged s _ ?_
  refine .answer_bind (.ensureEnabled s .delete) ?_ ?_
  · intro _ henabled
    refine .callStore_bind s ?_ ?_
    · intro removed after hd
      by_cases hz : removed = 0
      · rw [if_pos hz]
        subst hz
        exact .answer (.throw _) (.absent after henabled hd)
      · rw [if_neg hz]
        exact .answer (.bind_ok (.addLog _) (.pure _)) (.deleted removed after henabled hz hd)
    · intro fault after hd
      exact .fault fault after henabled hd
  · intro failure henabled
    exact .refused failure henabled

end Service

end DocumentApi
