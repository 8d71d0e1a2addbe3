import DocumentApi.Proofs.Action
import DocumentApi.Service.Write

/-!
The steps that the operations of a service are made of: what each gives, and what it leaves of the
session. Most of them give an answer that does not depend on the session and otherwise only log
(`Answers`); only calls of the store touch the store.
-/

set_option autoImplicit false

namespace DocumentApi

variable {σ α β : Type}

namespace Session

def logging (session : Session σ) (entries : List LogEntry) : Session σ :=
  { session with log := session.log ++ entries }

theorem logging_nil (session : Session σ) : session.logging [] = session := by simp [logging]

theorem logging_logging (session : Session σ) (entries more : List LogEntry) :
    (session.logging entries).logging more = session.logging (entries ++ more) := by
  simp [logging]

end Session

namespace Service

/-- An action gives an answer, whatever the session, and otherwise only logs. -/
def Answers (action : SessionAction σ α) (answer : Answer α) : Prop :=
  ∀ session, ∃ entries, outcome action session = (answer, session.logging entries)

def offered (s : Service σ) (op : Operation) : Answer Unit :=
  if s.isEnabled op then .ok ()
  else
    .error (.ofProblem .operationDisabled
      ("The operation \"" ++ op.name ++ "\" is disabled for resource \"" ++ s.resourceType ++ "\""))

namespace Answers

theorem ofAnswer (a : Answer α) : Answers (σ := σ) (Service.ofAnswer a) a := fun session =>
  ⟨[], by rw [Session.logging_nil]; rfl⟩

theorem pure (a : α) : Answers (σ := σ) (Pure.pure a) (.ok a) := ofAnswer (.ok a)

theorem throw (failure : Failure) :
    Answers (σ := σ) (α := α) (MonadExcept.throw failure) (.error failure) :=
  ofAnswer (.error failure)

theorem addLog (entries : List LogEntry) : Answers (σ := σ) (Service.addLog entries) (.ok ()) :=
  fun _ => ⟨entries, rfl⟩

theorem bind_error {action : SessionAction σ α} {failure : Failure}
    (h : Answers action (.error failure)) (next : α → SessionAction σ β) :
    Answers (action >>= next) (.error failure) := by
  intro session
  obtain ⟨entries, hfirst⟩ := h session
  exact ⟨entries, outcome_bind_of_error hfirst⟩

theorem bind_ok {action : SessionAction σ α} {a : α} {next : α → SessionAction σ β}
    {answer : Answer β} (h : Answers action (.ok a)) (hnext : Answers (next a) answer) :
    Answers (action >>= next) answer := by
  intro session
  obtain ⟨entries, hfirst⟩ := h session
  obtain ⟨more, hrest⟩ := hnext (session.logging entries)
  exact ⟨entries ++ more, by rw [outcome_bind_of_ok hfirst, hrest, Session.logging_logging]⟩

theorem bind {action : SessionAction σ α} {answer : Answer α} {next : α → SessionAction σ β}
    {rest : α → Answer β} (h : Answers action answer) (hnext : ∀ a, Answers (next a) (rest a)) :
    Answers (action >>= next) (answer >>= rest) := by
  cases answer with
  | ok a => exact bind_ok h (hnext a)
  | error failure => exact bind_error h next

theorem ensureEnabled (s : Service σ) (op : Operation) :
    Answers (s.ensureEnabled op) (s.offered op) := by
  rw [Service.ensureEnabled, offered]
  cases s.isEnabled op with
  | true => exact pure ()
  | false => exact throw _

theorem negotiate (s : Service σ) (c : Capability) (header : Option String) :
    Answers (s.negotiate c header) (s.registry.negotiate c (.ofString? header)).1 :=
  fun _ => ⟨(s.registry.negotiate c (.ofString? header)).2, rfl⟩

end Answers

/-- What reads a body and the representation to answer in, as far as the headers can be met. -/
def parserFor (s : Service σ) (c : Capability) (contentType accept : Option String) :
    Answer ((c.Input → Answer Value) × Representation) := do
  let requested ← (s.registry.negotiate c (.ofString? contentType)).1
  let representation ← (s.registry.negotiate .renderOne (.ofString? accept)).1
  return (← s.registry.parser c requested.contentType, representation)

theorem Answers.bodyParser (s : Service σ) (c : Capability) (contentType accept : Option String) :
    Answers (s.bodyParser c contentType accept) (s.parserFor c contentType accept) :=
  bind (negotiate s c contentType) fun _ => bind (negotiate s .renderOne accept) fun _ =>
    bind (ofAnswer _) fun _ => pure _

/-- What a fault of the store, once reported, ends the request with. -/
def reported : Answer (Problem × List LogEntry) → Failure
  | .ok report => .problem report.1
  | .error failure => failure

def failureOf (s : Service σ) (fault : StoreFault) : Failure :=
  match fault with
  | .problem p => .problem p
  | _ => reported (s.reporter.report fault s.entity)

theorem answers_report (s : Service σ) (fault : StoreFault)
    (report : Answer (Problem × List LogEntry)) :
    Answers (α := α) (σ := σ) (do
      let (p, entries) ← ofAnswer report
      addLog entries
      if 500 ≤ p.status then
        addLog [⟨.warning, "Store failure on " ++ s.entity ++ ": " ++ fault.text⟩]
      throw (.problem p)) (.error (reported report)) := by
  cases report with
  | error failure => exact .bind_error (.ofAnswer (.error failure)) _
  | ok report =>
    refine .bind_ok (.ofAnswer (.ok report)) (.bind_ok (.addLog _) ?_)
    split
    · exact .bind_ok (.addLog _) (.throw _)
    · exact .throw _

theorem Answers.fail (s : Service σ) (fault : StoreFault) :
    Answers (α := α) (s.fail fault) (.error (s.failureOf fault)) := by
  cases fault with
  | problem p => exact throw _
  | _ => exact answers_report s _ _

theorem outcome_callStore (s : Service σ) (action : StoreAction σ α) (session : Session σ) :
    outcome (s.callStore action) session =
      match outcome action session.store with
      | (.ok a, store) => (.ok a, { session with store })
      | (.error fault, store) => outcome (s.fail fault) { session with store } := by
  rw [callStore, outcome_bind_of_ok (outcome_get session)]
  rcases hrun : outcome action session.store with ⟨result, store⟩
  have hrun : action.run.run session.store = (result, store) := hrun
  rw [hrun]
  cases result <;> rfl

/-- Logging changes neither what an operation gives nor what it does to the store. -/
theorem outcome_logged (s : Service σ) (op : Operation) (action : SessionAction σ α)
    (session : Session σ) :
    ∃ entries, outcome (s.logged op action) session =
      ((outcome action session).1, (outcome action session).2.logging entries) := by
  rw [logged, outcome_tryCatch]
  rcases outcome action session with ⟨result, after⟩
  cases result with
  | ok a => exact ⟨[], by simp [Session.logging]⟩
  | error failure =>
    cases failure with
    | problem p => exact ⟨[s.rejection op p], rfl⟩
    | _ => exact ⟨[], by simp [Session.logging]⟩

/-! What holds at the end of an action, step by step. -/

/-- Run on a store, an action gives an answer and leaves a store as described, whatever the log. -/
def Ends (action : SessionAction σ α) (store : σ) (post : Answer α → σ → Prop) : Prop :=
  ∀ log, post (outcome action ⟨store, log⟩).1 (outcome action ⟨store, log⟩).2.store

namespace Ends

variable {store : σ} {post : Answer β → σ → Prop}

theorem imp {action : SessionAction σ β} {weaker : Answer β → σ → Prop}
    (h : Ends action store post) (himp : ∀ answer after, post answer after → weaker answer after) :
    Ends action store weaker := fun log => himp _ _ (h log)

theorem answer {action : SessionAction σ β} {answer : Answer β} (h : Answers action answer)
    (hpost : post answer store) : Ends action store post := by
  intro log
  obtain ⟨entries, hrun⟩ := h ⟨store, log⟩
  rw [hrun]
  exact hpost

theorem answer_bind {action : SessionAction σ α} {answer : Answer α}
    {next : α → SessionAction σ β} (h : Answers action answer)
    (hok : ∀ a, answer = .ok a → Ends (next a) store post)
    (herror : ∀ failure, answer = .error failure → post (.error failure) store) :
    Ends (action >>= next) store post := by
  cases answer with
  | ok a =>
    intro log
    obtain ⟨entries, hrun⟩ := h ⟨store, log⟩
    rw [outcome_bind_of_ok hrun]
    exact hok a rfl (log ++ entries)
  | error failure => exact answer (.bind_error h next) (herror failure rfl)

/-- A call of the store goes on with what the store gave, or ends the request with its fault. -/
theorem callStore_bind (s : Service σ) {action : StoreAction σ α} {next : α → SessionAction σ β}
    (hok : ∀ a after, outcome action store = (.ok a, after) → Ends (next a) after post)
    (herror : ∀ fault after, outcome action store = (.error fault, after) →
      post (.error (s.failureOf fault)) after) :
    Ends (s.callStore action >>= next) store post := by
  intro log
  rw [outcome_bind, outcome_callStore]
  dsimp only
  rcases hrun : outcome action store with ⟨result, after⟩
  cases result with
  | ok a => exact hok a after hrun log
  | error fault =>
    obtain ⟨entries, hfail⟩ := Answers.fail (α := α) s fault ⟨after, log⟩
    dsimp only
    rw [hfail]
    exact herror fault after hrun

theorem logged (s : Service σ) (op : Operation) {action : SessionAction σ β}
    (h : Ends action store post) : Ends (s.logged op action) store post := by
  intro log
  obtain ⟨entries, hrun⟩ := outcome_logged s op action ⟨store, log⟩
  rw [hrun]
  exact h log

end Ends

end Service

end DocumentApi
