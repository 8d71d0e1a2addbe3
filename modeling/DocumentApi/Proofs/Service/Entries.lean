import DocumentApi.Proofs.Paging.Response
import DocumentApi.Proofs.Service.Standard
import DocumentApi.Proofs.Store.Memory
import Mathlib.Data.List.Nodup
import Mathlib.Data.List.Perm.Subperm

/-!
The entries of a page. The documents of a page are kept by the texts of their identifiers, so a page
shows each document that was found, in order, unless two of them have different identifiers that
are written alike (`Collide`); of those it shows only one. Main statement: `entries_complete_iff`.
-/

set_option autoImplicit false

namespace DocumentApi

/-- Of fields that share a name, one is left. -/
theorem Record.length_ofList_lt {α : Type} {fields : Record α} (h : ¬ fields.Distinct) :
    (ofList fields).length < fields.length := by
  by_contra hle
  have hdistinct := distinct_ofList fields
  have hsubset : (ofList fields).names ⊆ fields.names := fun _ hname => mem_names_ofList.mp hname
  have hlength : fields.names.length ≤ (ofList fields).names.length := by
    simpa [names] using Nat.le_of_not_lt hle
  have hperm := (List.Nodup.subperm hdistinct hsubset).perm_of_length_le hlength
  exact h (hperm.nodup_iff.mp hdistinct)

namespace Collection

theorem idText_shownDocument (document : Document) :
    idText (IdCodec.shownDocument document) = idText document := by
  unfold IdCodec.shownDocument
  split
  · rename_i id hid
    rw [idText, Record.get?_set_self, idText, hid]
    rfl
  · rfl

/-- Two documents have different identifiers that are written alike. -/
def Collide (documents : List Document) : Prop :=
  ∃ a ∈ documents, ∃ b ∈ documents, a.get? "_id" ≠ b.get? "_id" ∧ idText a = idText b

theorem nodup_idText_iff {documents : List Document} (h : (ids documents).Nodup) :
    (documents.map idText).Nodup ↔ ¬ Collide documents := by
  let text (id : Option Value) : String := (id.getD .null).text
  have htexts : documents.map idText = (ids documents).map text := by
    rw [ids, List.map_map]
    rfl
  rw [htexts, List.nodup_map_iff_inj_on h]
  constructor
  · rintro hinj ⟨a, ha, b, hb, hne, halike⟩
    exact hne (hinj _ (List.mem_map_of_mem ha) _ (List.mem_map_of_mem hb) halike)
  · intro hapart x hx y hy halike
    obtain ⟨a, ha, rfl⟩ := List.mem_map.mp hx
    obtain ⟨b, hb, rfl⟩ := List.mem_map.mp hy
    by_contra hne
    exact hapart ⟨a, ha, b, hb, hne, halike⟩

end Collection

/-! Pages in the two formats that list their documents. -/

inductive PageFormat where
  | jsonApi
  | hal

namespace PageFormat

open DocumentApi.Representation

def representation : PageFormat → Representation
  | jsonApi => Representation.jsonApi
  | hal => Representation.hal

def render : PageFormat → PageToRender → Answer Value
  | jsonApi => JsonApi.renderPage
  | hal => Hal.renderPage

/-- The entry of a page for a document under its identifier. -/
def entry (format : PageFormat) (resourceType : String) (d : String × Document) : Value :=
  match format with
  | jsonApi =>
    .object [("id", .string d.1), ("type", .string resourceType), ("attributes", .object d.2)]
  | hal => .object d.2

def items? : Value → Option (List Value)
  | .list items => some items
  | _ => none

/-- The entries that a client finds in a page. -/
def entries? (format : PageFormat) (resourceType : String) (body : Value) :
    Option (List Value) :=
  let fields := (body.object?).getD []
  match format with
  | jsonApi => (fields.get? "data").bind items?
  | hal =>
    ((fields.get? "_embedded").bind Value.object?).bind fun embedded =>
      (embedded.get? resourceType).bind items?

theorem entries?_of_render {format : PageFormat} {page : PageToRender} {body : Value}
    (h : format.render page = .ok body) :
    format.entries? page.resourceType body =
      some (page.documents.map (format.entry page.resourceType)) := by
  cases format with
  | jsonApi =>
    obtain ⟨links, -, hbody⟩ := Answer.bind_eq_ok.mp h
    cases hbody
    rfl
  | hal =>
    obtain ⟨links, -, hbody⟩ := Answer.bind_eq_ok.mp h
    cases hbody
    have hentries : page.documents.values.map Value.object =
        page.documents.map (hal.entry page.resourceType) := List.map_map
    rw [← hentries]
    simp [entries?, Value.object?, Record.get?, items?]

theorem renderer_eq {format : PageFormat} {g : Registry} (h : format.representation ∈ g.items) :
    g.renderer .renderPage format.representation.contentType = .ok format.render := by
  cases format with
  | jsonApi => exact Registry.function_of_mem h (by decide +kernel) rfl _
  | hal => exact Registry.function_of_mem h (by decide +kernel) rfl _

end PageFormat

namespace Service

open Collection

variable {σ : Type}

theorem hasIds_of_keyed {s : Service σ} (hid : s.options.idField = "_id")
    {documents : List Document} {keyed : Record Document} (h : s.keyed documents = .ok keyed) :
    s.HasIds documents (documents.map idText) := by
  obtain ⟨pairs, hpairs, -⟩ := Answer.map_eq_ok.mp h
  refine List.forall₂_map_right_iff.mpr (List.forall₂_same.mpr fun document hd => ?_)
  obtain ⟨pair, hpair⟩ := Answer.exists_of_mapM_eq_ok hpairs document hd
  obtain ⟨id, hfound, -⟩ := Answer.bind_eq_ok.mp hpair
  rw [hfound]
  unfold Service.idOf at hfound
  split at hfound
  · rename_i value hvalue
    cases hfound
    rw [hid] at hvalue
    rw [idText, hvalue]
    rfl
  · cases hfound

/-- The page of the documents found has an entry for each of them, unless two of them collide. -/
theorem entries_of_listed {s : Service σ} (hid : s.options.idField = "_id") {format : PageFormat}
    (hmem : format.representation ∈ s.registry.items) {r : ListRequest} {plan : Plan}
    {stored : List Document} {count : Int} {response : Response}
    (hdistinct : (ids stored).Nodup)
    (h : s.listed r plan format.representation (stored.map IdCodec.shownDocument) count =
      .ok response) :
    ∃ entries, format.entries? s.resourceType response.body = some entries ∧
      (¬ Collide stored → entries = (stored.map IdCodec.shownDocument).map fun document =>
        format.entry s.resourceType (idText document, document)) ∧
      (Collide stored → entries.length < stored.length) := by
  generalize hfound : stored.map IdCodec.shownDocument = documents at h ⊢
  have hlength : documents.length = stored.length := by rw [← hfound, List.length_map]
  have htexts : documents.map idText = stored.map idText := by
    rw [← hfound, List.map_map]
    exact List.map_congr_left fun document _ => idText_shownDocument document
  obtain ⟨keyed, hkeyed, h⟩ := Answer.bind_eq_ok.mp h
  have hids := hasIds_of_keyed hid hkeyed
  let fields : Record Document := (documents.map idText).zip documents
  have hfields : fields.Distinct ↔ ¬ Collide stored := by
    rw [Record.Distinct, Record.names, names_zip hids, htexts, nodup_idText_iff hdistinct]
  have hkept : keyed = Record.ofList fields := by
    rw [Service.keyed, mapM_keyed hids] at hkeyed
    cases hkeyed
    rfl
  rw [PageFormat.renderer_eq hmem, Answer.ok_bind] at h
  obtain ⟨body, hbody, h⟩ := Answer.bind_eq_ok.mp h
  cases h
  refine ⟨_, PageFormat.entries?_of_render hbody, fun hapart => ?_, fun hcollide => ?_⟩
  · have hpairs : fields = documents.map fun document => (idText document, document) :=
      List.map_prod_right_eq_zip.symm
    rw [hkept, Record.ofList_of_distinct (hfields.mpr hapart), hpairs]
    exact List.map_map
  · rw [List.length_map, hkept]
    have hshorter := Record.length_ofList_lt fun hd => hfields.mp hd hcollide
    rwa [List.length_zip, List.length_map, Nat.min_self, hlength] at hshorter

section Complete
variable {c : Collection σ} {held : σ → List Document} {codec : IdCodec} {s : Service σ}

/-- A page in one of the two formats has one entry for each document that was found, in their order,
exactly if no two of them have different identifiers that are written alike; otherwise it has
fewer. -/
theorem entries_complete_iff (hc : c.FindsOnce held) (hs : s.store = c.store codec)
    (hid : s.options.idField = "_id") (format : PageFormat) {r : ListRequest} {plan : Plan}
    {session after : Session σ} {response : Response}
    (hdistinct : (ids (held session.store)).Nodup)
    (hplanned : s.planned r = .ok (plan, format.representation))
    (hrun : outcome (s.list r) session = (.ok response, after)) :
    ∃ found entries, (outcome (c.findFor plan.request) session.store).1 = .ok found ∧
      (ids found).Subperm (ids (held session.store)) ∧
      (outcome (s.store.find plan.request) session.store).1 =
        .ok (found.map IdCodec.shownDocument) ∧
      format.entries? s.resourceType response.body = some entries ∧
      (entries = ((found.map IdCodec.shownDocument).map fun document =>
        format.entry s.resourceType (idText document, document)) ↔ ¬ Collide found) ∧
      (Collide found → entries.length < found.length) := by
  have hends : ListRun s r session.store (outcome (s.list r) session).1
      (outcome (s.list r) session).2.store := ends_list s r session.store session.log
  rw [hrun] at hends
  change ListRun s r session.store (.ok response) after.store at hends
  generalize hanswer : (Except.ok response : Answer Response) = answer at hends
  generalize after.store = last at hends
  cases hends with
  | refused failure h => cases hanswer
  | findFault plan representation fault after h hf => cases hanswer
  | countFault plan representation documents found fault after h hf hcount => cases hanswer
  | answered plan' representation documents left count _ h hf hcount =>
    cases hplanned.symm.trans h
    have hmem : format.representation ∈ s.registry.items := by
      obtain ⟨-, hnegotiated, -⟩ := planned_eq_ok.mp h
      exact (List.mem_filter.mp (Registry.mem_capable_of_negotiate hnegotiated)).1
    have hshown := congrArg Prod.fst hf
    rw [hs, store_find, fst_outcome_map_eq_ok_iff] at hshown
    obtain ⟨found, hfound, rfl⟩ := hshown
    have honce : (ids found).Subperm (ids (held session.store)) :=
      hc plan.request session.store found _ (Prod.ext hfound rfl)
    have hdistinct : (ids found).Nodup := by
      obtain ⟨_, hperm, hsublist⟩ := honce
      exact hperm.nodup (hsublist.nodup hdistinct)
    obtain ⟨entries, hentries, hall, hfewer⟩ := entries_of_listed hid hmem hdistinct hanswer.symm
    refine ⟨found, entries, hfound, honce, by rw [hf], hentries, ⟨fun heq hcollide => ?_, hall⟩,
      hfewer⟩
    have hlength := congrArg List.length heq
    rw [List.length_map, List.length_map] at hlength
    exact absurd (hfewer hcollide) (by omega)

end Complete

def standardCats : Service Memory := standard Memory.store "cat" .unrestricted .byCode

def everyCat : ListRequest := ⟨[], "/cats", none⟩

def everyCatPlan : Plan := ⟨[], none, none, ⟨10, 1, by decide, by decide⟩⟩

theorem planned_everyCat :
    standardCats.planned everyCat = .ok (everyCatPlan, Representation.jsonApi) := by
  apply planned_eq_ok.mpr
  refine ⟨offered_standard _ _ _ _ .list, negotiate_standard _ _ _ _ .renderPage,
    ⟨none, none, none, everyCatPlan.page⟩, ?_, ?_⟩
  · decide +kernel
  · decide +kernel

/-- Identifiers of several types, each with a text of its own. -/
def mixedCats : Session Memory :=
  ⟨Memory.ofDocuments [[("_id", .int 1)], [("_id", .string "tom")],
    [("_id", .objectId (ObjectId.ofNat 1))]] [], []⟩

theorem entries_complete_mixedCats :
    (ids mixedCats.store.documents).Nodup ∧ ∃ response after,
      standardCats.planned everyCat = .ok (everyCatPlan, PageFormat.jsonApi.representation) ∧
      outcome (standardCats.list everyCat) mixedCats = (.ok response, after) ∧
      PageFormat.jsonApi.entries? "cat" response.body = some
        [.object [("id", .string "1"), ("type", .string "cat"),
            ("attributes", .object [("_id", .int 1)])],
          .object [("id", .string "tom"), ("type", .string "cat"),
            ("attributes", .object [("_id", .string "tom")])],
          .object [("id", .string "000000000000000000000001"), ("type", .string "cat"),
            ("attributes", .object [("_id", .string "000000000000000000000001")])]] := by
  have hdistinct : (ids mixedCats.store.documents).Nodup := by decide +kernel
  have hapart : ¬ Collide mixedCats.store.documents := by
    rw [← nodup_idText_iff hdistinct]
    decide +kernel
  have hgiven : (outcome (standardCats.list everyCat) mixedCats).1.toBool = true := by
    decide +kernel
  have hall : (outcome ((Memory.collection Disturbance.none).findFor everyCatPlan.request)
      mixedCats.store).1 = .ok mixedCats.store.documents := by
    decide +kernel
  refine ⟨hdistinct, ?_⟩
  rcases hrun : outcome (standardCats.list everyCat) mixedCats with ⟨answer, after⟩
  rw [hrun] at hgiven
  cases answer with
  | error failure => cases hgiven
  | ok response =>
    obtain ⟨found, entries, hfound, -, -, hentries, hcomplete, -⟩ :=
      entries_complete_iff (Memory.findsOnce Disturbance.none) (s := standardCats) rfl rfl .jsonApi
        hdistinct planned_everyCat hrun
    cases hall.symm.trans hfound
    refine ⟨response, after, planned_everyCat, rfl, hentries.trans ?_⟩
    rw [hcomplete.mpr hapart]
    decide +kernel

/-- A number and its text are different identifiers. -/
def alikeCats : Session Memory :=
  ⟨Memory.ofDocuments [[("_id", .int 1), ("name", .string "Tom")],
    [("_id", .string "1"), ("name", .string "Tim")]] [], []⟩

/-- Both documents are found, but the page shows the second one only. -/
theorem entries_of_alikeCats :
    (ids alikeCats.store.documents).Nodup ∧
    (outcome (standardCats.store.find everyCatPlan.request) alikeCats.store).1 =
      .ok [[("_id", .int 1), ("name", .string "Tom")],
        [("_id", .string "1"), ("name", .string "Tim")]] ∧
    (outcome (standardCats.list everyCat) alikeCats).1.toOption.bind
        (fun response => PageFormat.jsonApi.entries? "cat" response.body) =
      some [.object [("id", .string "1"), ("type", .string "cat"),
        ("attributes", .object [("_id", .string "1"), ("name", .string "Tim")])]] := by
  decide +kernel

end Service

end DocumentApi
