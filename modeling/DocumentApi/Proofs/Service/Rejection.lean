import DocumentApi.Proofs.Service.Atomicity
import DocumentApi.Proofs.Service.List
import DocumentApi.Proofs.Service.Single
import DocumentApi.Representation.Hydra
import DocumentApi.Representation.Plain

/-!
Requests to read or to create that are rejected. All that can reject one is read off the request
before the store is asked; what is looked at later either fails for another reason or is made by a
renderer, and a renderer only shows what it is given (`Renders`). Main statement: `rejected_store`.
-/

set_option autoImplicit false

namespace DocumentApi

/-- The client is told that the request is not valid, or not offered in this way. -/
def ProblemKind.isRejection (kind : ProblemKind) : Bool :=
  kind.isClient || kind = .operationDisabled || kind = .negotiation

def Failure.isRejection (failure : Failure) : Bool :=
  failure.problem?.any fun p => p.kind.isRejection

/-! Renderers. -/

namespace Representation

/-- A representation shows documents, or fails, but leaves it to others to reject requests. -/
structure Renders (item : Representation) : Prop where
  one : ∀ render, item.function? .renderOne = some render → ∀ one failure,
    render one = .error failure → failure.isRejection = false
  page : ∀ render, item.function? .renderPage = some render → ∀ page failure,
    render page = .error failure → failure.isRejection = false

theorem not_rejection_of_url {address : String} {failure : Failure}
    (h : RelativeUrl.ofText address = .error failure) : failure.isRejection = false := by
  obtain ⟨fault, rfl⟩ := RelativeUrl.ofText_error h
  rfl

theorem not_rejection_of_totalPages {count size : Int} {failure : Failure}
    (h : totalPages count size = .error failure) : failure.isRejection = false := by
  unfold totalPages at h
  split at h
  · cases h
    rfl
  · split at h
    · cases h
    · cases h
      rfl

theorem not_rejection_of_links {count : Int} {page : PageRequest} {address : String}
    {failure : Failure} (h : PageLinks.ofText count page address = .error failure) :
    failure.isRejection = false := by
  rcases Answer.bind_eq_error.mp h with hpages | ⟨_, -, h⟩
  · exact not_rejection_of_totalPages hpages
  · rcases Answer.bind_eq_error.mp h with hurl | ⟨_, -, hdone⟩
    · exact not_rejection_of_url hurl
    · cases hdone

theorem renders_jsonApi : jsonApi.Renders := by
  constructor
  · rintro _ ⟨⟩ one failure h
    rcases Answer.bind_eq_error.mp h with hurl | ⟨_, -, hdone⟩
    · exact not_rejection_of_url hurl
    · cases hdone
  · rintro _ ⟨⟩ page failure h
    rcases Answer.bind_eq_error.mp h with hlinks | ⟨_, -, hdone⟩
    · exact not_rejection_of_links hlinks
    · cases hdone

theorem renders_hal : hal.Renders := by
  constructor
  · rintro _ ⟨⟩ one failure ⟨⟩
  · rintro _ ⟨⟩ page failure h
    rcases Answer.bind_eq_error.mp h with hlinks | ⟨_, -, hdone⟩
    · exact not_rejection_of_links hlinks
    · cases hdone

theorem renders_hydra (vocabulary : String) : (hydra vocabulary).Renders := by
  constructor
  · rintro _ ⟨⟩ one failure ⟨⟩
  · rintro _ ⟨⟩ page failure h
    rcases Answer.bind_eq_error.mp h with hlinks | ⟨_, -, hdone⟩
    · exact not_rejection_of_links hlinks
    · cases hdone

theorem renders_plain : plain.Renders := by
  constructor
  · rintro _ ⟨⟩ one failure ⟨⟩
  · rintro _ ⟨⟩ page failure ⟨⟩

end Representation

/-- What a registry finds is of one of its representations, or it fails for want of one. -/
theorem Registry.function_cases (g : Registry) (c : Capability) (contentType : String)
    (missing : Problem) :
    (∃ item ∈ g.items, ∃ f, item.function? c = some f ∧ g.function c contentType missing = .ok f) ∨
      g.function c contentType missing = .error (.problem missing) := by
  unfold Registry.function
  cases hitem : g.find? contentType with
  | none => exact .inr rfl
  | some item =>
    have hmem : item ∈ g.items := List.mem_of_find?_eq_some hitem
    cases hf : item.function? c with
    | none => exact .inr (by simp [hf])
    | some f => exact .inl ⟨item, hmem, f, hf, by simp [hf]⟩

namespace Service

variable {σ : Type}

/-! What is made of the answers of the store rejects nothing. -/

section After
variable {s : Service σ} {failure : Failure} {representation : Representation}

theorem not_rejection_of_idOf {document : Document} (h : s.idOf document = .error failure) :
    failure.isRejection = false := by
  unfold idOf at h
  split at h
  · cases h
  · cases h
    rfl

/-- What comes after the renderer does not matter if it cannot fail. -/
theorem not_rejection_of_render {c : Capability} {contentType : String} {input : c.Input}
    {next : Value → Answer Response}
    (hrender : ∀ item ∈ s.registry.items, ∀ render, item.function? c = some render →
      render input = .error failure → failure.isRejection = false)
    (hnext : ∀ body, next body ≠ .error failure)
    (h : (s.registry.renderer c contentType >>= fun render => render input >>= next) =
      .error failure) : failure.isRejection = false := by
  rcases s.registry.function_cases c contentType Registry.noRenderer with
    ⟨item, hitem, render, hfunction, hfound⟩ | hmissing
  · rw [Registry.renderer, hfound, Answer.ok_bind] at h
    rcases Answer.bind_eq_error.mp h with hbody | ⟨body, -, hdone⟩
    · exact hrender item hitem render hfunction hbody
    · exact absurd hdone (hnext body)
  · rw [Registry.renderer, hmissing] at h
    cases h
    rfl

variable (hrenders : ∀ item ∈ s.registry.items, item.Renders)
include hrenders

theorem not_rejection_of_listed {r : ListRequest} {plan : Plan} {documents : List Document}
    {count : Int} (h : s.listed r plan representation documents count = .error failure) :
    failure.isRejection = false := by
  rcases Answer.bind_eq_error.mp h with hkeyed | ⟨_, -, h⟩
  · obtain ⟨document, -, hone⟩ := Answer.exists_of_mapM_eq_error (Answer.map_eq_error.mp hkeyed)
    rcases Answer.bind_eq_error.mp hone with hid | ⟨_, -, hdone⟩
    · exact not_rejection_of_idOf hid
    · cases hdone
  · refine not_rejection_of_render (fun item hitem render hfunction => ?_) ?_ h
    · exact (hrenders item hitem).page render hfunction _ failure
    · intro _ hdone
      cases hdone

theorem not_rejection_of_renderOne {contentType : String} {one : OneToRender}
    {next : Value → Answer Response} (hnext : ∀ body, next body ≠ .error failure)
    (h : (s.registry.renderer .renderOne contentType >>= fun render => render one >>= next) =
      .error failure) : failure.isRejection = false :=
  not_rejection_of_render
    (fun item hitem render hfunction => (hrenders item hitem).one render hfunction one failure)
    hnext h

theorem not_rejection_of_shownOne {r : GetRequest} {document : Document}
    (h : s.shownOne r representation document = .error failure) : failure.isRejection = false :=
  not_rejection_of_renderOne hrenders (fun _ hdone => by cases hdone) h

theorem not_rejection_of_announced {r : CreateRequest} {created : Document}
    (h : s.announced r representation created = .error failure) : failure.isRejection = false := by
  rcases Answer.bind_eq_error.mp h with hid | ⟨id, -, h⟩
  · exact not_rejection_of_idOf hid
  · rcases Answer.bind_eq_error.mp h with hlocation | ⟨location, -, h⟩
    · rcases Answer.bind_eq_error.mp hlocation with hurl | ⟨_, -, hdone⟩
      · exact Representation.not_rejection_of_url hurl
      · cases hdone
    · split at h
      · cases h
      · exact not_rejection_of_renderOne hrenders (fun _ hdone => by cases hdone) h

end After

/-! Runs over a store that keeps its faults. -/

inductive Request where
  | list (r : ListRequest)
  | get (r : GetRequest)
  | create (r : CreateRequest)

def serve (s : Service σ) : Request → SessionAction σ Response
  | .list r => s.list r
  | .get r => s.get r
  | .create r => s.create r

theorem Mirrors.serve (s : Service σ) (r : Request) : Mirrors (s.audited.serve r) (s.serve r) := by
  cases r with
  | list r => exact Mirrors.list s r
  | get r => exact Mirrors.get s r
  | create r => exact Mirrors.create s r

/-- A request that is rejected without a further fault of the store leaves the store as it was. -/
def Spares (store : Audited σ) (answer : Answer Response) (after : Audited σ) : Prop :=
  ∀ failure, answer = .error failure → failure.isRejection = true → after.faults = store.faults →
    after = store

theorem spares_of_faults {store found after : Audited σ} {answer : Answer Response} {α : Type}
    {action : StoreAction σ α} {fault : StoreFault} (hfound : found.faults = store.faults)
    (h : outcome (Audited.audit action) found = (.error fault, after)) :
    Spares store answer after := by
  intro failure _ _ hfaults
  rw [Audited.faults_of_audit_error h, hfound] at hfaults
  exact absurd hfaults (by simp)

theorem spares_of_not_rejection {store after : Audited σ} {answer : Answer Response}
    (h : ∀ failure, answer = .error failure → failure.isRejection = false) :
    Spares store answer after := by
  intro failure hanswer hrejected
  rw [h failure hanswer] at hrejected
  cases hrejected

/-- Whichever way a request goes, it is rejected before its first call of the store, if at all. -/
theorem ends_serve {s : Service σ} (hrenders : ∀ item ∈ s.registry.items, item.Renders)
    (r : Request) (store : Audited σ) : Ends (s.audited.serve r) store (Spares store) := by
  cases r with
  | list r =>
    refine (ends_list s.audited r store).imp fun answer after hrun => ?_
    cases hrun with
    | refused failure h => exact fun _ _ _ _ => rfl
    | findFault plan representation fault after h hf => exact spares_of_faults rfl hf
    | countFault plan representation documents found fault after h hf hc =>
      exact spares_of_faults (Audited.outcome_of_audit_ok hf).2 hc
    | answered plan representation documents found count after h hf hc =>
      exact spares_of_not_rejection fun _ => not_rejection_of_listed (s := s.audited) hrenders
  | get r =>
    refine (ends_get s.audited r store).imp fun answer after hrun => ?_
    cases hrun with
    | refused failure h => exact fun _ _ _ _ => rfl
    | readFault fields representation fault after h hr => exact spares_of_faults rfl hr
    | absent fields representation after h hr =>
      refine spares_of_not_rejection ?_
      rintro _ ⟨⟩
      rfl
    | shown fields representation document after h hr =>
      exact spares_of_not_rejection fun _ => not_rejection_of_shownOne (s := s.audited) hrenders
  | create r =>
    refine (ends_create s.audited r store).imp fun answer after hrun => ?_
    cases hrun with
    | refused failure h => exact fun _ _ _ _ => rfl
    | writeFault document representation fault after h hw => exact spares_of_faults rfl hw
    | created document representation created after h hw =>
      exact spares_of_not_rejection fun _ => not_rejection_of_announced (s := s.audited) hrenders

/-- A request to read or to create that is rejected, while the store reports no fault, leaves the
store as it was. So a store that keeps the calls made to it, as a collection does, has none more. -/
theorem rejected_store {s : Service σ} (hrenders : ∀ item ∈ s.registry.items, item.Renders)
    (r : Request) (session : Session σ) {failure : Failure} {after : Session σ}
    (hrun : outcome (s.serve r) session = (.error failure, after))
    (hrejected : failure.isRejection = true)
    (hfaults : (outcome (s.audited.serve r) session.unaudited).2.store.faults = []) :
    after.store = session.store := by
  have hspares := ends_serve hrenders r session.unaudited.store session.unaudited.log
  change Spares _ (outcome (s.audited.serve r) session.unaudited).1
    (outcome (s.audited.serve r) session.unaudited).2.store at hspares
  have hmirror := Mirrors.serve s r session.unaudited
  change outcome (s.serve r) session = _ at hmirror
  rw [hrun] at hmirror
  obtain ⟨hanswer, hafter⟩ := Prod.mk.inj hmirror
  have hkept := hspares failure hanswer.symm hrejected hfaults
  calc after.store
      = (outcome (s.audited.serve r) session.unaudited).2.store.state := by rw [hafter]; rfl
    _ = session.store := by rw [hkept]; rfl

def plainCats : Service Memory :=
  ⟨Memory.store, "cat", Options.standard,
    ⟨[Representation.jsonApi, Representation.plain], by decide +kernel⟩, .unrestricted, .byCode⟩

/-- A list, where a document is to be created from an object. -/
def listToCreate : Request := .create ⟨.list [], "/cats", some "application/json", none⟩

def oneCat : Session Memory := ⟨Memory.ofDocuments [[("_id", .int 1)]] [], []⟩

theorem rejected_store_listToCreate :
    let failure : Failure := .ofProblem .body "The body MUST defined and of type object"
    let after := (outcome (plainCats.serve listToCreate) oneCat).2
    (∀ item ∈ plainCats.registry.items, item.Renders) ∧
    outcome (plainCats.serve listToCreate) oneCat = (.error failure, after) ∧
    failure.isRejection = true ∧
    (outcome (plainCats.audited.serve listToCreate) oneCat.unaudited).2.store.faults = [] ∧
    after.store = oneCat.store ∧ after.store.calls = [] := by
  have hrenders : ∀ item ∈ plainCats.registry.items, item.Renders := by
    intro item hitem
    rcases List.mem_cons.mp hitem with rfl | hitem
    · exact Representation.renders_jsonApi
    · exact List.mem_singleton.mp hitem ▸ Representation.renders_plain
  have hanswer : (outcome (plainCats.serve listToCreate) oneCat).1 =
      .error (.ofProblem .body "The body MUST defined and of type object") := by
    decide +kernel
  have hrun : outcome (plainCats.serve listToCreate) oneCat =
      (.error (.ofProblem .body "The body MUST defined and of type object"),
        (outcome (plainCats.serve listToCreate) oneCat).2) := by
    rw [← hanswer]
  have hfaults :
      (outcome (plainCats.audited.serve listToCreate) oneCat.unaudited).2.store.faults = [] := by
    decide +kernel
  have hkept := rejected_store hrenders listToCreate oneCat hrun rfl hfaults
  have hcalls : oneCat.store.calls = [] := rfl
  exact ⟨hrenders, hrun, rfl, hfaults, hkept, (congrArg Memory.calls hkept).trans hcalls⟩

end Service

end DocumentApi
