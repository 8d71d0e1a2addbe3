import DocumentApi.Proofs.Service.Audit
import DocumentApi.Proofs.Service.Update
import DocumentApi.Proofs.Store.Change
import DocumentApi.Proofs.Store.Memory
import Mathlib.Data.List.Nodup

/-!
Updates that are refused. What is read off the request before the store is asked to write may refuse
it without any effect; the fields to show and the renderer of the response are only looked at after
the write, and a refusal by them leaves the document changed. Main statement: `update_refused_iff`.
-/

set_option autoImplicit false

namespace DocumentApi

def Failure.isRefusal (failure : Failure) : Bool := failure.problem?.any fun p => p.kind.isClient

variable {σ α : Type}

namespace Audited

theorem outcome_of_audit_ok {action : StoreAction σ α} {s after : Audited σ} {a : α}
    (h : outcome (audit action) s = (.ok a, after)) :
    outcome action s.state = (.ok a, after.state) ∧ after.faults = s.faults := by
  rw [outcome_audit] at h
  rcases hrun : outcome action s.state with ⟨result, state⟩
  rw [hrun] at h
  cases h
  simp [faultsOf]

theorem faults_of_audit_error {action : StoreAction σ α} {s after : Audited σ} {fault : StoreFault}
    (h : outcome (audit action) s = (.error fault, after)) :
    after.faults = s.faults ++ [fault] := by
  rw [outcome_audit] at h
  rcases hrun : outcome action s.state with ⟨result, state⟩
  rw [hrun] at h
  cases h
  rfl

end Audited

namespace Service

theorem refused_by_renderer {s : Service σ} {r : UpdateRequest} {representation : Representation}
    {document : Document} {failure : Failure}
    (h : s.rendered r representation document = .error failure) (hf : failure.isRefusal = true) :
    ∃ render input, s.registry.renderer .renderOne representation.contentType = .ok render ∧
      render input = .error failure := by
  rcases Answer.bind_eq_error.mp h with hurl | ⟨url, -, hrest⟩
  · obtain ⟨fault, rfl⟩ := RelativeUrl.ofText_error hurl
    cases hf
  · rcases Answer.bind_eq_error.mp hrest with hfind | ⟨render, hrender, hbody⟩
    · rw [Registry.renderer, Registry.function] at hfind
      split at hfind <;> cases hfind
      cases hf
    · rcases Answer.bind_eq_error.mp hbody with hb | ⟨_, _, hr⟩
      · exact ⟨render, _, hrender, hb⟩
      · cases hr

/-- What is held once the store was asked for the write of an accepted request. -/
def documentsWritten (held : σ → List Document) (s : Service σ) (r : UpdateRequest) (store : σ)
    (patch : Document) : List Document :=
  held (outcome (s.store.updateById r.id (identified r.id patch)) store).2

section Updates
variable {c : Collection σ} {held : σ → List Document} {codec : IdCodec} {s : Service σ}

/-- A refused update without a fault of the store ends before the write, or after it. -/
theorem refusal_cases (hc : c.Reads held) (hs : s.store = c.store codec) (r : UpdateRequest)
    (session : Session σ) {failure : Failure} {after : Session σ}
    (hrun : outcome (s.update r) session = (.error failure, after))
    (hrefused : failure.isRefusal = true)
    (hfaults : (outcome (s.audited.update r) session.unaudited).2.store.faults = []) :
    (s.accepted r = .error failure ∧ after.store = session.store) ∨
    ∃ patch representation, s.accepted r = .ok (patch, representation) ∧
      held after.store = documentsWritten held s r session.store patch ∧
      (s.shownFields r = .error failure ∨
        ∃ render input, s.registry.renderer .renderOne representation.contentType = .ok render ∧
          render input = .error failure) := by
  have hmirror := Mirrors.update s r session.unaudited
  have hends := ends_update s.audited r session.unaudited.store session.unaudited.log
  have hplain : session.unaudited.plain = session := rfl
  rw [hplain, hrun] at hmirror
  obtain ⟨hfailure, hafter⟩ := Prod.mk.inj hmirror
  have hstore : after.store = (outcome (s.audited.update r) session.unaudited).2.store.state := by
    rw [hafter]
    rfl
  change UpdateRun _ _ _ (outcome (s.audited.update r) session.unaudited).1
    (outcome (s.audited.update r) session.unaudited).2.store at hends
  rw [← hfailure] at hends
  generalize (outcome (s.audited.update r) session.unaudited).2.store = final at hends hstore hfaults
  generalize hanswer : (Except.error failure : Answer Response) = answer at hends
  have hafterWrite : ∀ w : Written s.audited r session.unaudited.store,
      held w.after.state = documentsWritten held s r session.store w.patch := by
    intro w
    obtain ⟨hw, -⟩ := Audited.outcome_of_audit_ok w.answered
    rw [documentsWritten]
    exact congrArg (fun run => held run.2) hw.symm
  have hfindById : ∀ fields st result last,
      outcome (s.audited.store.findById r.id fields) st = (result, last) →
        held last.state = held st.state := by
    intro fields st result last hr
    have hread : outcome (s.store.findById r.id fields) st.state = (result, last.state) :=
      congrArg (fun run => (run.1, run.2.state)) hr
    rw [hs] at hread
    exact hc.findById hread
  cases hends with
  | refused _ h =>
    cases hanswer
    exact Or.inl ⟨h, hstore⟩
  | writeFault patch representation fault _ h hw =>
    rw [Audited.faults_of_audit_error hw] at hfaults
    simp at hfaults
  | absent w h =>
    cases hanswer
    cases hrefused
  | silent w h hq => cases hanswer
  | fieldsRefused w _ h =>
    cases hanswer
    refine Or.inr ⟨w.patch, w.representation, w.accepted, ?_, Or.inl h⟩
    rw [hstore, hafterWrite w.toWritten]
  | readFault w fields fault _ h hr =>
    rw [Audited.faults_of_audit_error hr] at hfaults
    simp at hfaults
  | vanished w fields _ h hr =>
    cases hanswer
    cases hrefused
  | shown w fields document _ h hr =>
    refine Or.inr ⟨w.patch, w.representation, w.accepted, ?_,
      Or.inr (refused_by_renderer (s := s) hanswer.symm hrefused)⟩
    rw [hstore, hfindById fields _ _ _ hr, hafterWrite w.toWritten]

/-- An update that is refused while the store reports no fault leaves the documents as they were
exactly if it is refused before the write or the write changes nothing. If the documents changed,
it was the fields to show or the renderer of the response that refused it. -/
theorem update_refused_iff (hc : c.Reads held) (hs : s.store = c.store codec) (r : UpdateRequest)
    (session : Session σ) {failure : Failure} {after : Session σ}
    (hrun : outcome (s.update r) session = (.error failure, after))
    (hrefused : failure.isRefusal = true)
    (hfaults : (outcome (s.audited.update r) session.unaudited).2.store.faults = []) :
    (held after.store = held session.store ↔
      ∀ patch representation, s.accepted r = .ok (patch, representation) →
        documentsWritten held s r session.store patch = held session.store) ∧
    (held after.store ≠ held session.store →
      s.shownFields r = .error failure ∨
      ∃ contentType render input, s.registry.renderer .renderOne contentType = .ok render ∧
        render input = .error failure) := by
  rcases refusal_cases hc hs r session hrun hrefused hfaults with
    ⟨hearly, hkept⟩ | ⟨patch, representation, haccepted, hwritten, hlate⟩
  · rw [hkept]
    refine ⟨iff_of_true rfl fun patch representation h => ?_, fun h => absurd rfl h⟩
    rw [hearly] at h
    cases h
  · rw [hwritten]
    constructor
    · constructor
      · intro hsame patch' representation' h
        rw [haccepted] at h
        cases h
        exact hsame
      · exact fun h => h patch representation haccepted
    · exact fun _ => hlate.imp_right fun hrender => ⟨representation.contentType, hrender⟩

end Updates

def oneFieldService : Service Memory :=
  ⟨Memory.store, "cat", Options.standard,
    ⟨[Representation.jsonApi], List.nodup_singleton _⟩, ⟨none, none, some ["age"]⟩, .byCode⟩

def tomOnly : Session Memory :=
  ⟨Memory.ofDocuments [[("_id", .string "tom"), ("age", .int 3)]] [], []⟩

def askingForName : UpdateRequest where
  id := "tom"
  body := .object [("data", .object [("type", .string "cat"), ("id", .string "tom"),
    ("attributes", .object [("age", .int 4)])])]
  url := "/cats/tom?fields=name"
  params := [("fields", .string "name")]
  contentType := none
  accept := none
  noContent := false

theorem update_refused_iff_askingForName :
    let after := (outcome (oneFieldService.update askingForName) tomOnly).2
    oneFieldService.store = (Memory.collection Disturbance.none).store .objectIdOrText ∧
    outcome (oneFieldService.update askingForName) tomOnly =
      (.error (Whitelist.refusal "name" "projectable"), after) ∧
    (Whitelist.refusal "name" "projectable").isRefusal = true ∧
    (outcome (oneFieldService.audited.update askingForName) tomOnly.unaudited).2.store.faults = [] ∧
    (after.store.documents = tomOnly.store.documents ↔
      ∀ patch representation, oneFieldService.accepted askingForName = .ok (patch, representation) →
        documentsWritten Memory.documents oneFieldService askingForName tomOnly.store patch =
          tomOnly.store.documents) ∧
    (after.store.documents ≠ tomOnly.store.documents →
      oneFieldService.shownFields askingForName =
        .error (Whitelist.refusal "name" "projectable") ∨
      ∃ contentType render input,
        oneFieldService.registry.renderer .renderOne contentType = .ok render ∧
          render input = .error (Whitelist.refusal "name" "projectable")) := by
  intro after
  have hrun : outcome (oneFieldService.update askingForName) tomOnly =
      (.error (Whitelist.refusal "name" "projectable"), after) :=
    Prod.ext (by decide +kernel) rfl
  have hfaults : (outcome (oneFieldService.audited.update askingForName)
      tomOnly.unaudited).2.store.faults = [] := by decide +kernel
  exact ⟨rfl, hrun, rfl, hfaults, update_refused_iff
    (Memory.reads Disturbance.none) rfl askingForName tomOnly hrun rfl hfaults⟩

/-- The request is refused for the field that it asks for, but the age has been set. -/
theorem update_refused_after_write :
    (outcome (oneFieldService.update askingForName) tomOnly).1 =
      .error (Whitelist.refusal "name" "projectable") ∧
    (Whitelist.refusal "name" "projectable").isRefusal = true ∧
    (outcome (oneFieldService.audited.update askingForName) tomOnly.unaudited).2.store.faults = [] ∧
    tomOnly.store.documents = [[("_id", .string "tom"), ("age", .int 3)]] ∧
    (outcome (oneFieldService.update askingForName) tomOnly).2.store.documents =
      [[("_id", .string "tom"), ("age", .int 4)]] := by
  decide +kernel

end Service

end DocumentApi
