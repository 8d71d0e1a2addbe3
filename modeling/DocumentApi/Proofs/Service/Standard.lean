import DocumentApi.Proofs.Representation.JsonApi
import DocumentApi.Proofs.Service.Single
import DocumentApi.Proofs.Service.Update
import DocumentApi.Proofs.Url.Host

/-!
The service with the standard options and representations over a store, and what becomes of a
request that makes no demands of it: it is answered in the JSON:API format, with all fields.
-/

set_option autoImplicit false

namespace DocumentApi.Service

open DocumentApi.Representation

variable {σ : Type}

/-! Any service that offers the JSON:API format. -/

/-- A request that says nothing of fields asks for all of them. -/
theorem projection_of_noFields {s : Service σ} {params : DeepObject.Pairs}
    (h : "fields" ∉ params.map (·.1)) :
    s.projection (s.querySettings.fields params) = .ok none := by
  have hlast : FilterForm.last? params "fields" = none := by
    rw [FilterForm.last?, Option.map_eq_none_iff, List.find?_eq_none]
    intro pair hpair
    have hne : pair.1 ≠ "fields" := fun he =>
      h (he ▸ List.mem_map_of_mem (List.mem_reverse.mp hpair))
    simpa using hne
  have hfields : s.querySettings.fields params = none := by
    change QuerySettings.listOf params "fields" = none
    rw [QuerySettings.listOf, hlast]
    rfl
  rw [hfields]
  rfl

theorem renderer_jsonApi {s : Service σ} (h : jsonApi ∈ s.registry.items) :
    s.registry.renderer .renderOne jsonApi.contentType = .ok JsonApi.renderOne :=
  Registry.function_of_mem h (by decide +kernel) rfl _

theorem shownOne_jsonApi_iff {s : Service σ} (h : jsonApi ∈ s.registry.items) {r : GetRequest}
    {document : Document} {response : Response} :
    s.shownOne r jsonApi document = .ok response ↔
      ∃ url, RelativeUrl.ofText r.url = .ok url ∧
        response = ⟨200, JsonApi.shownAt url r.id s.resourceType document,
          some jsonApi.contentType, none⟩ := by
  rw [shownOne, renderer_jsonApi h, Answer.ok_bind]
  constructor
  · intro hok
    obtain ⟨body, hbody, hok⟩ := Answer.bind_eq_ok.mp hok
    cases hok
    obtain ⟨url, hurl, rfl⟩ := JsonApi.renderOne_eq_ok_iff.mp hbody
    exact ⟨url, hurl, rfl⟩
  · rintro ⟨url, hurl, rfl⟩
    exact Answer.bind_eq_ok.mpr ⟨_, JsonApi.renderOne_eq_ok hurl, rfl⟩

/-! The standard service. -/

/-- A service with the standard options and representations. -/
def standard (store : DocumentStore σ) (entity : String) (whitelist : Whitelist)
    (reporter : Reporter) : Service σ :=
  ⟨store, entity, Options.standard,
    ⟨defaultRepresentations, by decide +kernel⟩, whitelist, reporter⟩

section Standard
variable (store : DocumentStore σ) (entity : String) (whitelist : Whitelist)
  (reporter : Reporter)

theorem offered_standard (op : Operation) :
    (standard store entity whitelist reporter).offered op = .ok () := by
  cases op <;> rfl

theorem negotiate_standard (capability : Capability) :
    ((standard store entity whitelist reporter).registry.negotiate capability (.ofString? none)).1 =
      .ok jsonApi := by
  cases capability <;> rfl

theorem function_standard {capability : Capability} {f : capability.Input → Answer Value}
    (hf : JsonApi.function? capability = some f) (missing : Problem) :
    (standard store entity whitelist reporter).registry.function capability jsonApi.contentType
      missing = .ok f :=
  Registry.function_of_mem List.mem_cons_self (by decide +kernel) hf missing

theorem parserFor_standard (capability : Capability) {f : capability.Input → Answer Value}
    (hf : JsonApi.function? capability = some f) :
    (standard store entity whitelist reporter).parserFor capability none none = .ok (f, jsonApi) := by
  rw [parserFor, negotiate_standard, Answer.ok_bind, negotiate_standard, Answer.ok_bind,
    Registry.parser, function_standard store entity whitelist reporter hf]
  rfl

theorem askedFor_standard {r : GetRequest} (ha : r.accept = none)
    (hf : "fields" ∉ r.params.map (·.1)) :
    (standard store entity whitelist reporter).askedFor r = .ok (none, jsonApi) := by
  rw [askedFor, offered_standard, Answer.ok_bind, ha, negotiate_standard, Answer.ok_bind,
    projection_of_noFields hf]
  rfl

theorem shownOne_standard {r : GetRequest} {url : RelativeUrl}
    (h : RelativeUrl.ofText r.url = .ok url) (document : Document) :
    (standard store entity whitelist reporter).shownOne r jsonApi document =
      .ok ⟨200, JsonApi.shownAt url r.id entity document, some jsonApi.contentType, none⟩ :=
  (shownOne_jsonApi_iff List.mem_cons_self).mpr ⟨url, h, rfl⟩

theorem announced_standard {r : CreateRequest} {created : Document} {key location : String}
    {url : RelativeUrl} (hid : created.get? "_id" = some (.string key))
    (hlocation : locationOf r.url key = .ok location) (h : RelativeUrl.ofText location = .ok url) :
    (standard store entity whitelist reporter).announced r jsonApi created =
      .ok ⟨201, JsonApi.shownAt url key entity created, some jsonApi.contentType, some location⟩ := by
  have hrenderer :=
    renderer_jsonApi (s := standard store entity whitelist reporter) List.mem_cons_self
  have hkey : (standard store entity whitelist reporter).idOf created = .ok key := by
    have hfield : created.get? (standard store entity whitelist reporter).options.idField =
        some (.string key) := hid
    rw [idOf, hfield]
    rfl
  exact Answer.bind_eq_ok.mpr ⟨_, hkey, Answer.bind_eq_ok.mpr ⟨_, hlocation,
    Answer.bind_eq_ok.mpr ⟨_, hrenderer, Answer.bind_eq_ok.mpr
      ⟨_, JsonApi.renderOne_eq_ok h, rfl⟩⟩⟩⟩

theorem rendered_standard {r : UpdateRequest} {url kept : RelativeUrl}
    (hurl : RelativeUrl.ofText r.url = .ok url)
    (h : RelativeUrl.ofText (url.keepParams ["fields"]).text = .ok kept) (document : Document) :
    (standard store entity whitelist reporter).rendered r jsonApi document =
      .ok ⟨200, JsonApi.shownAt kept r.id entity document, some jsonApi.contentType, none⟩ := by
  have hrenderer :=
    renderer_jsonApi (s := standard store entity whitelist reporter) List.mem_cons_self
  exact Answer.bind_eq_ok.mpr ⟨_, hurl, Answer.bind_eq_ok.mpr
    ⟨_, hrenderer, Answer.bind_eq_ok.mpr ⟨_, JsonApi.renderOne_eq_ok h, rfl⟩⟩⟩

theorem drafted_standard {r : CreateRequest} (hc : r.contentType = none) (ha : r.accept = none) :
    (standard store entity whitelist reporter).drafted r =
      (JsonApi.parseCreate ⟨r.body, entity⟩ >>= requireObject) >>=
        fun document => pure (document, jsonApi) := by
  rw [drafted, offered_standard, Answer.ok_bind, hc, ha,
    parserFor_standard store entity whitelist reporter .parseCreate rfl]
  rfl

theorem accepted_standard {r : UpdateRequest} (hc : r.contentType = none) (ha : r.accept = none) :
    (standard store entity whitelist reporter).accepted r =
      (JsonApi.parseUpdate ⟨r.body, entity, r.id⟩ >>= requireObject) >>=
        fun patch => pure (patch, jsonApi) := by
  rw [accepted, offered_standard, Answer.ok_bind, hc, ha,
    parserFor_standard store entity whitelist reporter .parseUpdate rfl]
  rfl

end Standard

/-- The address of a new document is formed whatever its key, and can be read. -/
theorem locationOf_sound {s : String} (h : RelativeUrl.Sound s) (key : String) :
    ∃ location url, locationOf s key = .ok location ∧ RelativeUrl.ofText location = .ok url := by
  obtain ⟨u, v, hu, hv⟩ := h
  obtain ⟨w, hw⟩ := RelativeUrl.ofText_appendPath hu hv key
  exact ⟨_, w, Answer.bind_eq_ok.mpr ⟨u, hu, rfl⟩, hw⟩

/-- The address of a new document names no host unless the collection is at the root, or its own
path starts with two slashes. -/
theorem hostRelative_locationOf_iff {s : String} {u : RelativeUrl} (hu : RelativeUrl.ofText s = .ok u)
    (key : String) : ∃ location, locationOf s key = .ok location ∧
      (Url.HostRelative location (u.clearParams.appendPath key).path ↔
        ¬ (['/', '/'] <+: u.path.toList ∨ u.path.toList = ['/'])) := by
  have hspelled := RelativeUrl.spelled_of_ofText hu
  have hclear : RelativeUrl.Spelled u.clearParams :=
    ⟨hspelled.rooted, hspelled.path, hspelled.fragment⟩
  have hpath : (u.clearParams.appendPath key).path.toList =
      u.path.toList ++ RelativeUrl.Edit.added (.appendPath key) :=
    RelativeUrl.Edit.path_apply u.clearParams (.appendPath key)
  have hslash := RelativeUrl.Edit.head?_added (.appendPath key)
  refine ⟨_, Answer.bind_eq_ok.mpr ⟨u, hu, rfl⟩, ?_⟩
  rw [RelativeUrl.hostRelative_text_iff (RelativeUrl.spelled_appendPath hclear key), hpath,
    RelativeUrl.twoSlashes_append_iff hspelled.rooted hslash]
  simp [RelativeUrl.Edit.added]

end DocumentApi.Service
