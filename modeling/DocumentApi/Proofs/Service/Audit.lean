import DocumentApi.Proofs.Service.Session
import DocumentApi.Service.Read
import DocumentApi.Service.Write

/-!
Stores that keep the faults that they report. A service over one gives the same answers and does the
same to the store (`Mirrors`), so what is kept tells whether the store reported a fault in a run.
-/

set_option autoImplicit false

namespace DocumentApi

structure Audited (σ : Type) where
  state : σ
  faults : List StoreFault

variable {σ α β : Type}

namespace Audited

def faultsOf : Except StoreFault α → List StoreFault
  | .ok _ => []
  | .error fault => [fault]

def audit (action : StoreAction σ α) : StoreAction (Audited σ) α :=
  ExceptT.mk fun s =>
    ((outcome action s.state).1,
      ⟨(outcome action s.state).2, s.faults ++ faultsOf (outcome action s.state).1⟩)

theorem outcome_audit (action : StoreAction σ α) (s : Audited σ) :
    outcome (audit action) s =
      ((outcome action s.state).1,
        ⟨(outcome action s.state).2, s.faults ++ faultsOf (outcome action s.state).1⟩) := rfl

end Audited

open Audited

def DocumentStore.audited (store : DocumentStore σ) : DocumentStore (Audited σ) where
  find request := audit (store.find request)
  findById id fields := audit (store.findById id fields)
  count query := audit (store.count query)
  insert document := audit (store.insert document)
  updateById id patch := audit (store.updateById id patch)
  deleteById id := audit (store.deleteById id)

def Service.audited (s : Service σ) : Service (Audited σ) :=
  ⟨s.store.audited, s.entity, s.options, s.registry, s.whitelist, s.reporter⟩

namespace Session

def plain (session : Session (Audited σ)) : Session σ := ⟨session.store.state, session.log⟩

def unaudited (session : Session σ) : Session (Audited σ) := ⟨⟨session.store, []⟩, session.log⟩

end Session

namespace Service

/-- Two actions give the same, and leave the same but for the faults kept. -/
def Mirrors (audited : SessionAction (Audited σ) α) (action : SessionAction σ α) : Prop :=
  ∀ session, outcome action session.plain =
    ((outcome audited session).1, (outcome audited session).2.plain)

namespace Mirrors

theorem pure (a : α) :
    Mirrors (σ := σ) (Pure.pure a) (Pure.pure a) := fun _ => rfl

theorem throw (failure : Failure) :
    Mirrors (σ := σ) (α := α) (MonadExcept.throw failure) (MonadExcept.throw failure) := fun _ => rfl

theorem ofAnswer (a : Answer α) :
    Mirrors (σ := σ) (Service.ofAnswer a) (Service.ofAnswer a) := fun _ => rfl

theorem addLog (entries : List LogEntry) :
    Mirrors (σ := σ) (Service.addLog entries) (Service.addLog entries) := fun _ => rfl

section Sequence
variable {audited : SessionAction (Audited σ) α} {action : SessionAction σ α}

theorem bind {audited' : α → SessionAction (Audited σ) β} {action' : α → SessionAction σ β}
    (h : Mirrors audited action) (hnext : ∀ a, Mirrors (audited' a) (action' a)) :
    Mirrors (audited >>= audited') (action >>= action') := by
  intro session
  rw [outcome_bind, outcome_bind, h session]
  rcases outcome audited session with ⟨result, after⟩
  cases result with
  | ok a => exact hnext a after
  | error failure => rfl

theorem ite {audited' : SessionAction (Audited σ) α} {action' : SessionAction σ α} (c : Prop)
    [Decidable c] (h : Mirrors audited action) (h' : Mirrors audited' action') :
    Mirrors (if c then audited else audited') (if c then action else action') := by
  split
  · exact h
  · exact h'

theorem logged (s : Service σ) (op : Operation) (h : Mirrors audited action) :
    Mirrors (s.audited.logged op audited) (s.logged op action) := by
  intro session
  rw [Service.logged, Service.logged, outcome_tryCatch, outcome_tryCatch, h session]
  rcases outcome audited session with ⟨result, after⟩
  cases result with
  | ok a => rfl
  | error failure => cases failure <;> rfl

end Sequence

theorem ensureEnabled (s : Service σ) (op : Operation) :
    Mirrors (s.audited.ensureEnabled op) (s.ensureEnabled op) :=
  ite _ (pure ()) (throw _)

theorem negotiate (s : Service σ) (c : Capability) (header : Option String) :
    Mirrors (s.audited.negotiate c header) (s.negotiate c header) :=
  bind (addLog _) fun _ => ofAnswer _

theorem fail (s : Service σ) (fault : StoreFault) :
    Mirrors (α := α) (s.audited.fail fault) (s.fail fault) := by
  cases fault with
  | problem p => exact throw _
  | _ =>
    exact bind (ofAnswer _) fun _ => bind (addLog _) fun _ =>
      ite _ (bind (addLog _) fun _ => throw _) (throw _)

theorem callStore (s : Service σ) (action : StoreAction σ α) :
    Mirrors (s.audited.callStore (audit action)) (s.callStore action) := by
  intro session
  have hstore : session.plain.store = session.store.state := rfl
  rw [outcome_callStore, outcome_callStore, outcome_audit, hstore]
  rcases outcome action session.store.state with ⟨result, store⟩
  cases result with
  | ok a => rfl
  | error fault => exact fail s fault ⟨⟨store, session.store.faults ++ [fault]⟩, session.log⟩

theorem bodyParser (s : Service σ) (c : Capability) (contentType accept : Option String) :
    Mirrors (s.audited.bodyParser c contentType accept) (s.bodyParser c contentType accept) :=
  bind (negotiate s _ _) fun _ => bind (negotiate s _ _) fun _ => bind (ofAnswer _) fun _ => pure _

theorem list (s : Service σ) (r : ListRequest) : Mirrors (s.audited.list r) (s.list r) :=
  logged s .list (bind (ensureEnabled s _) fun _ => bind (negotiate s _ _) fun _ =>
    bind (ofAnswer _) fun _ => bind (ofAnswer _) fun _ => bind (callStore s _) fun _ =>
    bind (callStore s _) fun _ => bind (ofAnswer _) fun _ => bind (ofAnswer _) fun _ =>
    bind (ofAnswer _) fun _ => pure _)

theorem get (s : Service σ) (r : GetRequest) : Mirrors (s.audited.get r) (s.get r) := by
  refine logged s .get (bind (ensureEnabled s _) fun _ => bind (negotiate s _ _) fun _ =>
    bind (ofAnswer _) fun fields => bind (callStore s _) fun found => ?_)
  cases found with
  | none => exact throw _
  | some document => exact bind (ofAnswer _) fun _ => bind (ofAnswer _) fun _ => pure _

theorem create (s : Service σ) (r : CreateRequest) : Mirrors (s.audited.create r) (s.create r) := by
  refine logged s .create (bind (ensureEnabled s _) fun _ => bind (bodyParser s _ _ _) fun parser =>
    bind (ofAnswer _) fun _ => bind (callStore s _) fun _ => bind (ofAnswer _) fun _ =>
    bind (ofAnswer _) fun _ => bind (addLog _) fun _ => ?_)
  exact ite _ (pure _) (bind (ofAnswer _) fun _ => bind (ofAnswer _) fun _ => pure _)

theorem showUpdated (s : Service σ) (r : UpdateRequest) (representation : Representation) :
    Mirrors (s.audited.showUpdated r representation) (s.showUpdated r representation) := by
  refine bind (ofAnswer _) fun fields => bind (callStore s _) fun found => ?_
  cases found with
  | none => exact throw _
  | some document =>
    exact bind (ofAnswer _) fun _ => bind (ofAnswer _) fun _ => bind (ofAnswer _) fun _ => pure _

theorem update (s : Service σ) (r : UpdateRequest) : Mirrors (s.audited.update r) (s.update r) := by
  refine logged s .update (bind (ensureEnabled s _) fun _ => bind (bodyParser s _ _ _) fun parser =>
    bind (ofAnswer _) fun patch => bind (callStore s _) fun result => ?_)
  exact ite _ (throw _) (ite _ (pure _) (showUpdated s r _))

end Mirrors

end Service

end DocumentApi
