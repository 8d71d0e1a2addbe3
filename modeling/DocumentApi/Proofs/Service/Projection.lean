import DocumentApi.Proofs.Service.Confinement
import DocumentApi.Proofs.Service.Single

/-!
The fields that a read shows, when clients may only ask for some. The collection is asked for the
fields that the request lists and that are allowed, but if there is no such field, it is asked for
every field: no list of fields and an empty one are the same to it. Main statement: `read_shows`.
-/

set_option autoImplicit false

namespace DocumentApi

/-- The fields that a call for documents asks for. -/
def Call.projection? : Call → Option (Option (Record Value))
  | .find _ fields _ _ _ => some fields
  | .findOne _ fields => some fields
  | _ => none

namespace StoreQuery

theorem ofFields_eq_none_iff {fields : Option (List String)} :
    ofFields fields = none ↔ ∀ name, name ∉ fields.getD [] := by
  match fields with
  | none => simp [ofFields]
  | some [] => simp [ofFields]
  | some (first :: rest) =>
    refine iff_of_false (by simp [ofFields]) fun h => h first ?_
    exact List.mem_cons_self

theorem mem_names_ofFields {fields : Option (List String)} {shown : Record Value}
    (h : ofFields fields = some shown) {name : String} :
    name ∈ shown.names ↔ name ∈ fields.getD [] := by
  match fields with
  | none => cases h
  | some [] => cases h
  | some (first :: rest) =>
    cases h
    rw [Record.mem_names_ofList, Record.names, List.map_map]
    exact iff_of_eq (congrArg (name ∈ ·) (List.map_id (first :: rest)))

end StoreQuery

namespace Service

/-- What is shown of a document: the fields that are asked for and allowed, or every field, if no
field is both. -/
structure ShowsFields (asked allowed : List String) (fields : Option (Record Value)) : Prop where
  named : ∀ shown, fields = some shown → ∀ name, name ∈ shown.names ↔ name ∈ asked ∧ name ∈ allowed
  every : fields = none ↔ ∀ name ∈ asked, name ∉ allowed

variable {σ : Type}

theorem shows_of_projection {s : Service σ} {projectable : List String}
    (hw : s.whitelist.projectable = some projectable) {asked kept : Option (List String)}
    (h : s.projection asked = .ok kept) :
    ShowsFields (asked.getD []) projectable (StoreQuery.ofFields kept) := by
  have hkept : ∀ {name}, name ∈ kept.getD [] ↔ name ∈ asked.getD [] ∧ name ∈ projectable :=
    Whitelist.mem_filterProjection_iff s.options.policy_ne_keep hw h
  constructor
  · intro shown hshown name
    rw [StoreQuery.mem_names_ofFields hshown, hkept]
  · rw [StoreQuery.ofFields_eq_none_iff]
    constructor
    · intro hnone name hasked hallowed
      exact hnone name (hkept.mpr ⟨hasked, hallowed⟩)
    · intro hrefused name hname
      obtain ⟨hasked, hallowed⟩ := hkept.mp hname
      exact hrefused name hasked hallowed

/-- What a request for one document makes of the calls before it. -/
theorem GetRun.calls {c : Collection σ} {calls : σ → List Call} (hc : c.Notes calls)
    {codec : IdCodec} {s : Service σ} (hs : s.store = c.store codec) {r : GetRequest}
    {store after : σ} {answer : Answer Response} (h : GetRun s r store answer after) :
    calls after = calls store ∨ ∃ fields representation id,
      s.askedFor r = .ok (fields, representation) ∧
      calls after = calls store ++
        [.findOne (Collection.byId id) (StoreQuery.ofFields fields)] := by
  have hread : ∀ {fields representation result}, s.askedFor r = .ok (fields, representation) →
      outcome (s.store.findById r.id fields) store = (result, after) →
      calls after = calls store ∨ ∃ fields representation id,
        s.askedFor r = .ok (fields, representation) ∧
        calls after = calls store ++
          [.findOne (Collection.byId id) (StoreQuery.ofFields fields)] := by
    intro fields representation result h hr
    rw [hs] at hr
    rcases hc.findById hr with hnone | ⟨id, hcalls⟩
    · exact .inl hnone
    · exact .inr ⟨fields, representation, id, h, hcalls⟩
  cases h with
  | refused failure h => exact .inl rfl
  | readFault fields representation fault after h hr => exact hread h hr
  | absent fields representation after h hr => exact hread h hr
  | shown fields representation document after h hr => exact hread h hr

inductive ReadRequest where
  | list (r : ListRequest)
  | get (r : GetRequest)

def ReadRequest.params : ReadRequest → DeepObject.Pairs
  | list r => r.params
  | get r => r.params

def read (s : Service σ) : ReadRequest → SessionAction σ Response
  | .list r => s.list r
  | .get r => s.get r

/-- The names that the parameter for fields lists, if there is one with a text. -/
def asked (s : Service σ) (r : ReadRequest) : List String :=
  (s.querySettings.fields r.params).getD []

theorem fields_of_planned {s : Service σ} {r : ListRequest} {plan : Plan}
    {representation : Representation} (h : s.planned r = .ok (plan, representation)) :
    s.projection (s.querySettings.fields r.params) = .ok plan.fields :=
  (parts_of_planned h).1

theorem fields_of_askedFor {s : Service σ} {r : GetRequest} {fields : Option (List String)}
    {representation : Representation} (h : s.askedFor r = .ok (fields, representation)) :
    s.projection (s.querySettings.fields r.params) = .ok fields :=
  (askedFor_eq_ok.mp h).2.2

/-- Every call for documents that a read makes asks for the fields that the request lists and that
are allowed; it asks for every field just if the request lists no allowed one. -/
theorem read_shows {c : Collection σ} {calls : σ → List Call} (hc : c.Notes calls)
    {codec : IdCodec} {s : Service σ} (hs : s.store = c.store codec) {projectable : List String}
    (hw : s.whitelist.projectable = some projectable) (r : ReadRequest) (session : Session σ) :
    ∃ made, calls (outcome (s.read r) session).2.store = calls session.store ++ made ∧
      ∀ call ∈ made, ∀ fields, call.projection? = some fields →
        ShowsFields (s.asked r) projectable fields := by
  cases r with
  | list r =>
    have hrun : ListRun s r session.store _ _ := ends_list s r session.store session.log
    rcases hrun.calls hc hs with hnone | ⟨plan, representation, hplanned, hcalls⟩
    · exact ⟨[], hnone.trans (List.append_nil _).symm, by simp⟩
    · have hshows := shows_of_projection hw (fields_of_planned hplanned)
      have hfind : ∀ fields, (Collection.findCall plan.request).projection? = some fields →
          ShowsFields (s.asked (.list r)) projectable fields := by
        rintro _ ⟨⟩
        exact hshows
      rcases hcalls with hcalls | hcalls
      · exact ⟨_, hcalls, by simpa using hfind⟩
      · refine ⟨_, hcalls, ?_⟩
        intro call hcall
        rcases List.mem_cons.mp hcall with rfl | hcall
        · exact hfind
        · rw [List.mem_singleton.mp hcall]
          rintro _ ⟨⟩
  | get r =>
    have hrun : GetRun s r session.store _ _ := ends_get s r session.store session.log
    rcases hrun.calls hc hs with hnone | ⟨fields, representation, id, hasked, hcalls⟩
    · exact ⟨[], hnone.trans (List.append_nil _).symm, by simp⟩
    · refine ⟨_, hcalls, ?_⟩
      intro call hcall
      rw [List.mem_singleton.mp hcall]
      rintro _ ⟨⟩
      exact shows_of_projection hw (fields_of_askedFor hasked)

theorem read_shows_prodding :
    guardedCats.store = Memory.store ∧
    guardedCats.whitelist.projectable = some ["name"] ∧
    (outcome (guardedCats.read (.list prodding)) ⟨Memory.ofDocuments [] [], []⟩).2.store.calls =
      [.find proddingQuery (some [("name", .int 1)]) 0 10 (some [("age", -1)]),
        .count proddingQuery] ∧
    ShowsFields (guardedCats.asked (.list prodding)) ["name"] (some [("name", .int 1)]) := by
  have hcalls : (outcome (guardedCats.read (.list prodding))
      ⟨Memory.ofDocuments [] [], []⟩).2.store.calls =
        [.find proddingQuery (some [("name", .int 1)]) 0 10 (some [("age", -1)]),
          .count proddingQuery] := by
    decide +kernel
  refine ⟨rfl, rfl, hcalls, ?_⟩
  obtain ⟨made, happended, hshows⟩ := read_shows (Memory.notes Disturbance.none)
    (s := guardedCats) rfl rfl (.list prodding) ⟨Memory.ofDocuments [] [], []⟩
  rw [hcalls] at happended
  cases happended
  exact hshows _ List.mem_cons_self _ rfl

def askingForSecret : GetRequest :=
  ⟨"tom", "/cats/tom?fields=secret", [("fields", .string "secret")], none⟩

def tomWithSecret : Session Memory :=
  ⟨Memory.ofDocuments
    [[("_id", .string "tom"), ("name", .string "Tom"), ("secret", .string "x")]] [], []⟩

/-- Asked for nothing but a field that is not allowed, the collection gives all of them. -/
theorem read_shows_secret :
    guardedCats.asked (.get askingForSecret) = ["secret"] ∧ guardedCats.options.policy = .remove ∧
    guardedCats.whitelist.projectable = some ["name"] ∧
    (outcome (guardedCats.read (.get askingForSecret)) tomWithSecret).2.store.calls =
      [.findOne [("_id", .string "tom")] none] := by
  decide +kernel

end Service

end DocumentApi
