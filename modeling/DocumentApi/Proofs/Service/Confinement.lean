import DocumentApi.Proofs.Filter.Confined
import DocumentApi.Proofs.Service.List
import DocumentApi.Proofs.Store.Memory
import DocumentApi.Proofs.Store.SortOrder

/-!
What a list request asks of the store. Over a store that keeps a list of the calls made to it, which
changes nothing else (`list_recorded`), a request makes none, or asks for documents once and then at
most counts them by the same query; the query, the order and the fields are confined to what the
whitelist and the settings allow. Main statement: `list_calls_confined`.
-/

set_option autoImplicit false

namespace DocumentApi

variable {σ α : Type}

/-- The state of a store, and the calls that were made to it. -/
structure Recorded (σ : Type) where
  state : σ
  calls : List StoreCall

namespace Recorded

/-- Runs an action of the store and keeps note of the call. -/
def noting (call : StoreCall) (action : StoreAction σ α) : StoreAction (Recorded σ) α :=
  ExceptT.mk fun r => ((outcome action r.state).1, ⟨(outcome action r.state).2, r.calls ++ [call]⟩)

theorem outcome_noting (call : StoreCall) (action : StoreAction σ α) (r : Recorded σ) :
    outcome (noting call action) r =
      ((outcome action r.state).1, ⟨(outcome action r.state).2, r.calls ++ [call]⟩) := rfl

theorem calls_of_noting {call : StoreCall} {action : StoreAction σ α} {r after : Recorded σ}
    {result : Except StoreFault α} (h : outcome (noting call action) r = (result, after)) :
    after.calls = r.calls ++ [call] := by
  rw [outcome_noting] at h
  cases h
  rfl

theorem state_of_noting {call : StoreCall} {action : StoreAction σ α} {r after : Recorded σ}
    {result : Except StoreFault α} (h : outcome (noting call action) r = (result, after)) :
    outcome action r.state = (result, after.state) := by
  rw [outcome_noting] at h
  cases h
  rfl

def store (store : DocumentStore σ) : DocumentStore (Recorded σ) where
  find request := noting (.find request) (store.find request)
  findById id fields := noting (.findById id fields) (store.findById id fields)
  count query := noting (.count query) (store.count query)
  insert document := noting (.insert document) (store.insert document)
  updateById id patch := noting (.updateById id patch) (store.updateById id patch)
  deleteById id := noting (.deleteById id) (store.deleteById id)

end Recorded

namespace Whitelist

/-- The names that are selected are those that are allowed, unless refused ones are kept. -/
theorem mem_select_iff {policy : RefusalPolicy} (hp : policy ≠ .keep) {allow : String → Answer Unit}
    {names kept : List String} (h : select policy allow names = .ok kept) {name : String} :
    name ∈ kept ↔ name ∈ names ∧ allow name = .ok () := by
  induction names generalizing kept with
  | nil =>
    cases h
    simp
  | cons first rest ih =>
    cases hfirst : allow first with
    | ok _ =>
      simp only [select, hfirst] at h
      obtain ⟨others, hothers, rfl⟩ := Answer.map_eq_ok.mp h
      rw [List.mem_cons, List.mem_cons, ih hothers]
      constructor
      · rintro (rfl | ⟨hname, hallow⟩)
        · exact ⟨.inl rfl, hfirst⟩
        · exact ⟨.inr hname, hallow⟩
      · rintro ⟨rfl | hname, hallow⟩
        · exact .inl rfl
        · exact .inr ⟨hname, hallow⟩
    | error failure =>
      cases policy with
      | stop => simp [select, hfirst] at h
      | remove =>
        simp only [select, hfirst] at h
        rw [ih h, List.mem_cons]
        refine and_congr_left fun hallow => (or_iff_right ?_).symm
        rintro rfl
        cases hfirst.symm.trans hallow
      | keep => exact absurd rfl hp

variable {w : Whitelist} {policy : RefusalPolicy}

theorem filterSort_allowed (hp : policy ≠ .keep) {tokens : Option (List String)}
    {sortable kept : List String} (hw : w.sortable = some sortable)
    (h : w.filterSort policy tokens = .ok (some kept)) :
    ∀ token ∈ kept, sortField token ∈ sortable := by
  obtain ⟨_, -, hselect⟩ := Answer.mapM_eq_some h
  intro token ht
  obtain ⟨-, hallow⟩ := (mem_select_iff hp hselect).mp ht
  simp only [allowSort, allows, hw] at hallow
  split at hallow
  · rename_i hmem
    simpa using hmem
  · cases hallow

/-- The fields that are left of those asked for are the allowed ones. -/
theorem mem_filterProjection_iff (hp : policy ≠ .keep) {asked kept : Option (List String)}
    {projectable : List String} (hw : w.projectable = some projectable)
    (h : w.filterProjection policy asked = .ok kept) {name : String} :
    name ∈ kept.getD [] ↔ name ∈ asked.getD [] ∧ name ∈ projectable := by
  cases asked with
  | none =>
    cases h
    simp
  | some names =>
    obtain ⟨others, hselect, rfl⟩ := Answer.map_eq_ok.mp h
    have hallow : w.allowProject name = .ok () ↔ name ∈ projectable := by
      simp [allowProject, allows, hw]
    rw [Option.getD_some, mem_select_iff hp hselect, hallow]
    rfl

end Whitelist

theorem StoreQuery.mem_names_ofSort {tokens : List String} {name : String}
    (h : name ∈ (ofSort tokens).names) : ∃ token ∈ tokens, Whitelist.sortField token = name := by
  have hname := Record.mem_names_ofList.mp h
  simp only [Record.names, List.map_map, List.mem_map, Function.comp_apply, sortKey_fst] at hname
  exact hname

theorem Options.policy_ne_keep (o : Options) : o.policy ≠ .keep := by
  unfold policy
  split <;> decide

namespace Service

/-- A request for documents that asks for no more than what is allowed: the query is made of fields
that clients may filter by, the order of fields to sort by, and only fields to ask for are shown. -/
structure Confined (o : Options) (filterable sortable projectable : List String)
    (request : FindRequest) : Prop where
  query : ∀ entry ∈ request.query, FilterEntry o.operators o.escapeLogical
    (FieldEntry (· ∈ filterable) (StoreQuery.ClauseName o.operators)) entry
  sort : ∀ sort, request.sort = some sort → ∀ name ∈ sort.names, name ∈ sortable
  fields : ∀ fields, request.fields = some fields → ∀ field ∈ fields, field ∈ projectable

theorem plan_confined {s : Service σ} {filterable sortable projectable : List String}
    (hw : s.whitelist = ⟨some filterable, some sortable, some projectable⟩) {q : ListQuery}
    {plan : Plan} (h : s.plan q = .ok plan) :
    Confined s.options filterable sortable projectable plan.request := by
  obtain ⟨filters, hfilters, h⟩ := Answer.bind_eq_ok.mp h
  obtain ⟨fields, hfields, h⟩ := Answer.bind_eq_ok.mp h
  obtain ⟨sort, hsort, h⟩ := Answer.bind_eq_ok.mp h
  cases h
  have hp := s.options.policy_ne_keep
  have hallowed : ∀ entry ∈ filters.getD [], s.validator.AllowedEntry entry := by
    cases filters with
    | none => simp
    | some filter =>
      obtain ⟨_, -, hvisit⟩ := Answer.mapM_eq_some hfilters
      exact Validator.visitFields_allowed (v := s.validator) hp hvisit
  refine ⟨fun entry he => ?_, fun names hnames name hname => ?_, fun kept hkept => ?_⟩
  · refine (Validator.confined_ofFilter hallowed entry he).imp fun field hf => ?_
    refine hf.imp (fun name hname => ?_) fun _ => id
    simpa [Validator.allowsField, validator, hw] using hname
  · obtain ⟨tokens, rfl, rfl⟩ := Option.map_eq_some_iff.mp hnames
    obtain ⟨token, ht, rfl⟩ := StoreQuery.mem_names_ofSort hname
    exact Whitelist.filterSort_allowed hp (by rw [hw]) hsort token ht
  · obtain rfl : fields = some kept := hkept
    intro field hf
    exact ((Whitelist.mem_filterProjection_iff hp (by rw [hw]) hfields).mp hf).2

/-- The service over the store that keeps note of its calls. -/
def recorded (s : Service σ) : Service (Recorded σ) :=
  ⟨Recorded.store s.store, s.entity, s.options, s.registry, s.whitelist, s.reporter⟩

theorem ListRun.of_recorded {s : Service σ} {r : ListRequest} {store after : Recorded σ}
    {answer : Answer Response} (h : ListRun s.recorded r store answer after) :
    ListRun s r store.state answer after.state := by
  cases h with
  | refused failure h => exact .refused failure h
  | findFault plan representation fault _ h hf =>
    exact .findFault plan representation fault _ h (Recorded.state_of_noting hf)
  | countFault plan representation documents found fault _ h hf hc =>
    exact .countFault plan representation documents found.state fault _ h
      (Recorded.state_of_noting hf) (Recorded.state_of_noting hc)
  | answered plan representation documents found count _ h hf hc =>
    exact .answered plan representation documents found.state count _ h
      (Recorded.state_of_noting hf) (Recorded.state_of_noting hc)

/-- Keeping note of the calls changes neither the answer nor what becomes of the store. -/
theorem list_recorded (s : Service σ) (r : ListRequest) (session : Session (Recorded σ))
    (log : List LogEntry) :
    (outcome (s.list r) ⟨session.store.state, log⟩).1 = (outcome (s.recorded.list r) session).1 ∧
    (outcome (s.list r) ⟨session.store.state, log⟩).2.store =
      (outcome (s.recorded.list r) session).2.store.state := by
  have hplain : ListRun s r session.store.state (outcome (s.list r) ⟨session.store.state, log⟩).1
      (outcome (s.list r) ⟨session.store.state, log⟩).2.store := ends_list s r _ log
  have hrecorded : ListRun s.recorded r session.store (outcome (s.recorded.list r) session).1
      (outcome (s.recorded.list r) session).2.store := ends_list s.recorded r _ session.log
  exact Prod.mk.inj (hplain.eq_listOutcome.trans hrecorded.of_recorded.eq_listOutcome.symm)

/-- A list request of a service with lists of the fields that clients may use asks the store for
nothing outside of them and of the allowed operators: it makes no call, or one for documents that is
confined to them, perhaps with a count by the same query after it. -/
theorem list_calls_confined {s : Service σ} {filterable sortable projectable : List String}
    (hw : s.whitelist = ⟨some filterable, some sortable, some projectable⟩) (r : ListRequest)
    (session : Session (Recorded σ)) :
    ∃ calls, (outcome (s.recorded.list r) session).2.store.calls = session.store.calls ++ calls ∧
      (calls = [] ∨ ∃ request, Confined s.options filterable sortable projectable request ∧
        (calls = [.find request] ∨ calls = [.find request, .count request.query])) := by
  have hrun := ends_list s.recorded r session.store session.log
  have hconfined : ∀ {plan representation}, s.recorded.planned r = .ok (plan, representation) →
      Confined s.options filterable sortable projectable plan.request := by
    intro plan representation h
    obtain ⟨-, -, query, -, hplan⟩ := planned_eq_ok.mp h
    exact plan_confined (s := s.recorded) hw hplan
  change ∃ calls, (outcome (s.recorded.list r) ⟨session.store, session.log⟩).2.store.calls = _ ∧ _
  generalize (outcome (s.recorded.list r) ⟨session.store, session.log⟩).1 = answer at hrun
  generalize (outcome (s.recorded.list r) ⟨session.store, session.log⟩).2.store = after at hrun ⊢
  cases hrun with
  | refused failure h => exact ⟨[], by simp, Or.inl rfl⟩
  | findFault plan representation fault after h hf =>
    refine ⟨[.find plan.request], ?_, Or.inr ⟨plan.request, hconfined h, Or.inl rfl⟩⟩
    exact Recorded.calls_of_noting hf
  | countFault plan representation documents found fault after h hf hc =>
    refine ⟨[.find plan.request, .count plan.query], ?_,
      Or.inr ⟨plan.request, hconfined h, Or.inr rfl⟩⟩
    rw [Recorded.calls_of_noting hc, Recorded.calls_of_noting hf, List.append_assoc]
    rfl
  | answered plan representation documents found count after h hf hc =>
    refine ⟨[.find plan.request, .count plan.query], ?_,
      Or.inr ⟨plan.request, hconfined h, Or.inr rfl⟩⟩
    rw [Recorded.calls_of_noting hc, Recorded.calls_of_noting hf, List.append_assoc]
    rfl

/-- Few operators, which leave out one that combines filters, and a policy of passing over others. -/
def lenient : Options :=
  { Options.standard with
    operators := [.value .startWith, .value .regex, .value .notEquals, .value .isDefined,
      .logical .or]
    escapeLogical := true
    stopOnInvalid := false }

def guardedCats : Service Memory :=
  ⟨Memory.store, "cat", lenient, ⟨[Representation.jsonApi], List.pairwise_singleton _ _⟩,
    ⟨some ["name", "age"], some ["age"], some ["name"]⟩, .byCode⟩

/-- Conditions that are merged, beside fields, operators and order that are not for the client. -/
def prodding : ListRequest :=
  ⟨[("filters[name][$start]", .string "T"), ("filters[name][$regex]", .string "m$"),
      ("filters[age][$neq]", .string "3"), ("filters[age][$def]", .string "1"),
      ("filters[age][$gt]", .string "1"), ("filters[$or][0][name][$neq]", .string "x"),
      ("filters[$or][0][secret][$neq]", .string "x"), ("filters[$and][0][secret]", .string "1"),
      ("filters[$where]", .string "1"), ("sort", .string "-age,secret,--age"),
      ("fields", .string "name,secret")], "/cats", none⟩

def proddingQuery : Record Value :=
  [("name", .object [("$all", .list [.regex "^T", .regex "m$"])]),
    ("age", .object [("$nin", .list [.string "3", .null])]),
    ("$or", .list [.object [("name", .object [("$ne", .string "x")])]]),
    ("\\$and", .list [.object [("secret", .string "1")]])]

theorem list_calls_confined_prodding :
    guardedCats.whitelist = ⟨some ["name", "age"], some ["age"], some ["name"]⟩ ∧
    let request : FindRequest := ⟨proddingQuery, some ["name"], 10, 0, some [("age", -1)]⟩
    (outcome (guardedCats.recorded.list prodding)
      ⟨⟨Memory.ofDocuments [] [], []⟩, []⟩).2.store.calls =
        [.find request, .count proddingQuery] ∧
    Confined lenient ["name", "age"] ["age"] ["name"] request := by
  have hcalls : (outcome (guardedCats.recorded.list prodding)
      ⟨⟨Memory.ofDocuments [] [], []⟩, []⟩).2.store.calls =
        [.find ⟨proddingQuery, some ["name"], 10, 0, some [("age", -1)]⟩, .count proddingQuery] := by
    decide +kernel
  refine ⟨rfl, hcalls, ?_⟩
  obtain ⟨calls, happended, hshape⟩ := list_calls_confined (s := guardedCats) rfl prodding
    ⟨⟨Memory.ofDocuments [] [], []⟩, []⟩
  rw [hcalls, List.nil_append] at happended
  subst happended
  obtain h | ⟨request, hconfined, h | h⟩ := hshape
  · cases h
  · cases h
  · cases h
    exact hconfined

end Service

end DocumentApi
