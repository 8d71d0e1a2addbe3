import DocumentApi.Proofs.Service.Session
import DocumentApi.Proofs.Store.Calls
import DocumentApi.Service.Read

/-!
Runs of a list request, from the request to its end. `ListRun` lists the ways in which one can go;
everything that is refused before the store is asked is one answer, `planned`, and the response is
another, `listed`. What comes of a run is a function of the store, `listOutcome`; over a collection,
it is one call for documents and at most one to count them.
-/

set_option autoImplicit false

namespace DocumentApi

namespace Service

variable {σ : Type}

/-- The plan of a list request and the representation of the response, unless it is refused. -/
def planned (s : Service σ) (r : ListRequest) : Answer (Plan × Representation) := do
  s.offered .list
  let representation ← (s.registry.negotiate .renderPage (.ofString? r.accept)).1
  let query ← s.querySettings.parse r.params
  let plan ← s.plan query
  return (plan, representation)

def listed (s : Service σ) (r : ListRequest) (plan : Plan) (representation : Representation)
    (documents : List Document) (count : Int) : Answer Response := do
  let documents ← s.keyed documents
  let render ← s.registry.renderer .renderPage representation.contentType
  let body ← render ⟨s.resourceType, r.url, count, plan.page, documents⟩
  return ⟨200, body, some representation.contentType, none⟩

theorem planned_eq_ok {s : Service σ} {r : ListRequest} {plan : Plan}
    {representation : Representation} :
    s.planned r = .ok (plan, representation) ↔
      s.offered .list = .ok () ∧
      (s.registry.negotiate .renderPage (.ofString? r.accept)).1 = .ok representation ∧
      ∃ query, s.querySettings.parse r.params = .ok query ∧ s.plan query = .ok plan := by
  constructor
  · intro h
    obtain ⟨_, hoffered, h⟩ := Answer.bind_eq_ok.mp h
    obtain ⟨_, hchosen, h⟩ := Answer.bind_eq_ok.mp h
    obtain ⟨query, hquery, h⟩ := Answer.bind_eq_ok.mp h
    obtain ⟨_, hplan, h⟩ := Answer.bind_eq_ok.mp h
    cases h
    exact ⟨hoffered, hchosen, query, hquery, hplan⟩
  · rintro ⟨hoffered, hchosen, query, hquery, hplan⟩
    rw [planned, hoffered, Answer.ok_bind, hchosen, Answer.ok_bind, hquery, Answer.ok_bind, hplan]
    rfl

/-- What is planned is read off the parameters: the fields that may be shown, and the page. -/
theorem parts_of_planned {s : Service σ} {r : ListRequest} {plan : Plan}
    {representation : Representation} (h : s.planned r = .ok (plan, representation)) :
    s.projection (s.querySettings.fields r.params) = .ok plan.fields ∧
      s.querySettings.page r.params = .ok plan.page := by
  obtain ⟨-, -, query, hquery, hplan⟩ := planned_eq_ok.mp h
  obtain ⟨filters, -, hquery⟩ := Answer.bind_eq_ok.mp hquery
  obtain ⟨page, hpage, hquery⟩ := Answer.bind_eq_ok.mp hquery
  cases hquery
  obtain ⟨_, -, hplan⟩ := Answer.bind_eq_ok.mp hplan
  obtain ⟨fields, hfields, hplan⟩ := Answer.bind_eq_ok.mp hplan
  obtain ⟨_, -, hplan⟩ := Answer.bind_eq_ok.mp hplan
  cases hplan
  exact ⟨hfields, hpage⟩

/-- How a list request ends, and what it leaves of the store. -/
inductive ListRun (s : Service σ) (r : ListRequest) (store : σ) : Answer Response → σ → Prop where
  | refused (failure : Failure) (h : s.planned r = .error failure) :
    ListRun s r store (.error failure) store
  | findFault (plan : Plan) (representation : Representation) (fault : StoreFault) (after : σ)
      (h : s.planned r = .ok (plan, representation))
      (hf : outcome (s.store.find plan.request) store = (.error fault, after)) :
    ListRun s r store (.error (s.failureOf fault)) after
  | countFault (plan : Plan) (representation : Representation) (documents : List Document)
      (found : σ) (fault : StoreFault) (after : σ) (h : s.planned r = .ok (plan, representation))
      (hf : outcome (s.store.find plan.request) store = (.ok documents, found))
      (hc : outcome (s.store.count plan.query) found = (.error fault, after)) :
    ListRun s r store (.error (s.failureOf fault)) after
  | answered (plan : Plan) (representation : Representation) (documents : List Document)
      (found : σ) (count : Int) (after : σ) (h : s.planned r = .ok (plan, representation))
      (hf : outcome (s.store.find plan.request) store = (.ok documents, found))
      (hc : outcome (s.store.count plan.query) found = (.ok count, after)) :
    ListRun s r store (s.listed r plan representation documents count) after

/-- The answer to a list request and the store after it; each depends on the store alone. -/
def listOutcome (s : Service σ) (r : ListRequest) (store : σ) : Answer Response × σ :=
  match s.planned r with
  | .error failure => (.error failure, store)
  | .ok (plan, representation) =>
    match outcome (s.store.find plan.request) store with
    | (.error fault, after) => (.error (s.failureOf fault), after)
    | (.ok documents, found) =>
      match outcome (s.store.count plan.query) found with
      | (.error fault, after) => (.error (s.failureOf fault), after)
      | (.ok count, after) => (s.listed r plan representation documents count, after)

theorem ListRun.eq_listOutcome {s : Service σ} {r : ListRequest} {store after : σ}
    {answer : Answer Response} (h : ListRun s r store answer after) :
    (answer, after) = s.listOutcome r store := by
  cases h with
  | refused failure h => simp only [listOutcome, h]
  | findFault plan representation fault _ h hf => simp only [listOutcome, h, hf]
  | countFault plan representation documents found fault _ h hf hc =>
    simp only [listOutcome, h, hf, hc]
  | answered plan representation documents found count _ h hf hc =>
    simp only [listOutcome, h, hf, hc]

/-- A response shows what the store found and counted. -/
theorem ListRun.of_ok {s : Service σ} {r : ListRequest} {store after : σ} {answer : Answer Response}
    (hrun : ListRun s r store answer after) {response : Response} (hok : answer = .ok response) :
    ∃ plan representation documents found count, s.planned r = .ok (plan, representation) ∧
      outcome (s.store.find plan.request) store = (.ok documents, found) ∧
      outcome (s.store.count plan.query) found = (.ok count, after) ∧
      s.listed r plan representation documents count = .ok response := by
  cases hrun with
  | refused failure h => cases hok
  | findFault plan representation fault after h hf => cases hok
  | countFault plan representation documents found fault after h hf hc => cases hok
  | answered plan representation documents found count after h hf hc =>
    exact ⟨plan, representation, documents, found, count, h, hf, hc, hok⟩

/-- What a list request makes of the calls before it. -/
theorem ListRun.calls {c : Collection σ} {calls : σ → List Call} (hc : c.Notes calls)
    {codec : IdCodec} {s : Service σ} (hs : s.store = c.store codec) {r : ListRequest}
    {store after : σ} {answer : Answer Response} (h : ListRun s r store answer after) :
    calls after = calls store ∨ ∃ plan representation, s.planned r = .ok (plan, representation) ∧
      (calls after = calls store ++ [Collection.findCall plan.request] ∨
        calls after = calls store ++ [Collection.findCall plan.request, .count plan.query]) := by
  cases h with
  | refused failure h => exact .inl rfl
  | findFault plan representation fault after h hf =>
    rw [hs] at hf
    exact .inr ⟨plan, representation, h, .inl (hc.find hf)⟩
  | countFault plan representation documents found fault after h hf hcount =>
    rw [hs] at hf hcount
    refine .inr ⟨plan, representation, h, .inr ?_⟩
    rw [hc.count hcount, hc.find hf, List.append_assoc]
    rfl
  | answered plan representation documents found count after h hf hcount =>
    rw [hs] at hf hcount
    refine .inr ⟨plan, representation, h, .inr ?_⟩
    rw [hc.count hcount, hc.find hf, List.append_assoc]
    rfl

theorem ends_planned {s : Service σ} {r : ListRequest} {store : σ} {plan : Plan}
    {representation : Representation} (h : s.planned r = .ok (plan, representation)) :
    Ends (do
      let documents ← s.callStore (s.store.find plan.request)
      let count ← s.callStore (s.store.count plan.query)
      let documents ← ofAnswer (s.keyed documents)
      let render ← ofAnswer (s.registry.renderer .renderPage representation.contentType)
      let body ← ofAnswer (render ⟨s.resourceType, r.url, count, plan.page, documents⟩)
      return ⟨200, body, some representation.contentType, none⟩) store (ListRun s r store) := by
  refine .callStore_bind s ?_ ?_
  · intro documents found hf
    refine .callStore_bind s ?_ ?_
    · intro count after hc
      have hlisted : Answers (σ := σ) _ (s.listed r plan representation documents count) :=
        .bind (.ofAnswer (s.keyed documents)) fun _ =>
          .bind (.ofAnswer (s.registry.renderer .renderPage representation.contentType)) fun _ =>
            .bind (.ofAnswer _) fun _ => .pure _
      exact .answer hlisted (.answered plan representation documents found count after h hf hc)
    · intro fault after hc
      exact .countFault plan representation documents found fault after h hf hc
  · intro fault after hf
    exact .findFault plan representation fault after h hf

/-- Every list request ends in one of the listed ways. -/
theorem ends_list (s : Service σ) (r : ListRequest) (store : σ) :
    Ends (s.list r) store (ListRun s r store) := by
  refine .logged s _ ?_
  refine .answer_bind (.ensureEnabled s .list) ?_ ?_
  · intro _ henabled
    refine .answer_bind (.negotiate s _ _) ?_ ?_
    · intro representation hnegotiated
      have hplanned : s.planned r = (s.querySettings.parse r.params >>= s.plan) >>=
          fun plan => pure (plan, representation) := by
        rw [planned, henabled, Answer.ok_bind, hnegotiated, Answer.ok_bind, bind_assoc]
      refine .answer_bind (.ofAnswer _) ?_ ?_
      · intro query hquery
        refine .answer_bind (.ofAnswer _) ?_ ?_
        · intro plan hplan
          apply ends_planned
          rw [hplanned, hquery, Answer.ok_bind, hplan]
          rfl
        · intro failure hplan
          apply ListRun.refused
          rw [hplanned, hquery, Answer.ok_bind, hplan, Answer.error_bind]
      · intro failure hquery
        apply ListRun.refused
        rw [hplanned, hquery, Answer.error_bind, Answer.error_bind]
    · intro failure hnegotiated
      apply ListRun.refused
      rw [planned, henabled, Answer.ok_bind, hnegotiated, Answer.error_bind]
  · intro failure henabled
    apply ListRun.refused
    rw [planned, henabled, Answer.error_bind]

/-- A request that is not refused, over a store that reports no fault, gives its response. -/
theorem outcome_list {s : Service σ} {r : ListRequest} {plan : Plan}
    {representation : Representation} {session : Session σ} {documents : List Document}
    {found last : σ} {count : Int} (h : s.planned r = .ok (plan, representation))
    (hf : outcome (s.store.find plan.request) session.store = (.ok documents, found))
    (hc : outcome (s.store.count plan.query) found = (.ok count, last)) :
    (outcome (s.list r) session).1 = s.listed r plan representation documents count ∧
      (outcome (s.list r) session).2.store = last := by
  have hends : ListRun s r session.store (outcome (s.list r) session).1
      (outcome (s.list r) session).2.store := ends_list s r session.store session.log
  have hrun := hends.eq_listOutcome
  simp only [listOutcome, h, hf, hc, Prod.mk.injEq] at hrun
  exact hrun

end Service

end DocumentApi
