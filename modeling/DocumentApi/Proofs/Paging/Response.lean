import DocumentApi.Proofs.Service.List
import Mathlib.Data.List.Forall2

/-!
What a client reads off the response to a list request in the JSON:API format: the identifiers of
its data, and its links.
-/

set_option autoImplicit false

namespace DocumentApi

variable {σ : Type}

namespace Response

def member? (response : Response) (name : String) : Option Value :=
  response.body.object?.bind fun body => body.get? name

def link? (response : Response) (name : String) : Option String :=
  ((response.member? "links").bind Value.object?).bind fun links =>
    (links.get? name).bind Value.string?

def shownId? (item : Value) : Option String :=
  (item.object?.bind fun fields => fields.get? "id").bind Value.string?

/-- The identifiers of the data, in order; none if the data is no list of objects with one each. -/
def dataIds? (response : Response) : Option (List String) :=
  match response.member? "data" with
  | some (.list items) => items.mapM shownId?
  | _ => none

end Response

theorem string?_ofString? (text : Option String) : (Value.ofString? text).string? = text := by
  cases text <;> rfl

/-- The fields that are left out have no text to be read. -/
theorem string?_get?_withoutNull {fields : Record Value} (hd : fields.Distinct) (name : String) :
    ((withoutNull fields).get? name).bind Value.string? = (fields.get? name).bind Value.string? := by
  induction fields with
  | nil => rfl
  | cons field rest ih =>
    obtain ⟨key, value⟩ := field
    obtain ⟨hkey, hrest⟩ := List.nodup_cons.mp hd
    by_cases hnull : value = .null
    · subst hnull
      have hkept : withoutNull ((key, .null) :: rest) = withoutNull rest := by simp [withoutNull]
      rw [hkept, ih hrest]
      by_cases hk : key = name
      · rw [Record.get?_eq_none_iff.mpr (hk ▸ hkey)]
        simp [Record.get?, hk, Value.string?]
      · simp [Record.get?, hk]
    · have hkept : withoutNull ((key, value) :: rest) = (key, value) :: withoutNull rest := by
        simp [withoutNull, hnull]
      rw [hkept]
      by_cases hk : key = name
      · simp [Record.get?, hk]
      · simpa [Record.get?, hk] using ih hrest

namespace Service

open DocumentApi.Representation

def HasIds (s : Service σ) (documents : List Document) (ids : List String) : Prop :=
  List.Forall₂ (fun document id => s.idOf document = .ok id) documents ids

theorem mapM_keyed {s : Service σ} {documents : List Document} {ids : List String}
    (h : s.HasIds documents ids) :
    (documents.mapM fun document => do return (← s.idOf document, document)) =
      .ok (ids.zip documents) := by
  induction h with
  | nil => rfl
  | cons hid _ ih =>
    rw [List.mapM_cons, ih, hid]
    rfl

theorem names_zip {s : Service σ} {documents : List Document} {ids : List String}
    (h : s.HasIds documents ids) : (ids.zip documents).map (·.1) = ids :=
  List.map_fst_zip (Nat.le_of_eq h.length_eq.symm)

theorem keyed_of_hasIds {s : Service σ} {documents : List Document} {ids : List String}
    (h : s.HasIds documents ids) (hd : ids.Nodup) : s.keyed documents = .ok (ids.zip documents) := by
  have hdistinct : Record.Distinct (ids.zip documents) := by
    rw [Record.Distinct, Record.names, names_zip h]
    exact hd
  rw [keyed, mapM_keyed h]
  exact congrArg Except.ok (Record.ofList_of_distinct hdistinct)

theorem jsonApi_renderer {s : Service σ} (h : jsonApi ∈ s.registry.items) :
    s.registry.renderer .renderPage jsonApi.contentType = .ok JsonApi.renderPage :=
  Registry.function_of_mem h (by decide +kernel) rfl _

theorem shownId?_resource (d : String × Document) (resourceType : String) :
    Response.shownId? (JsonApi.resource d.1 resourceType d.2) = some d.1 := rfl

theorem mapM_shownId?_resources (documents : Record Document) (resourceType : String) :
    (documents.map fun d => JsonApi.resource d.1 resourceType d.2).mapM Response.shownId? =
      some (documents.map (·.1)) := by
  induction documents with
  | nil => rfl
  | cons d rest ih =>
    rw [List.map_cons, List.mapM_cons, ih, shownId?_resource]
    rfl

/-- The response with a page of documents shows their identifiers, and links to the first page and
to the next one if there is any. -/
theorem listed_jsonApi {s : Service σ} {r : ListRequest} (plan : Plan) {documents : List Document}
    {ids : List String} {count pages : Int} {u : RelativeUrl} (hmem : jsonApi ∈ s.registry.items)
    (hids : s.HasIds documents ids) (hd : ids.Nodup)
    (hpages : totalPages count plan.page.size = .ok pages) (hurl : RelativeUrl.ofText r.url = .ok u) :
    ∃ response, s.listed r plan jsonApi documents count = .ok response ∧
      response.dataIds? = some ids ∧
      response.link? "first" = some (PageLinks.linkTo plan.page u 1) ∧
      response.link? "next" = (PageLinks.ofPages pages plan.page u).next := by
  let links := PageLinks.ofPages pages plan.page u
  have hlinks : PageLinks.ofText count plan.page r.url = .ok links := by
    rw [PageLinks.ofText, hpages, Answer.ok_bind, hurl]
    rfl
  have hdata := mapM_shownId?_resources (ids.zip documents) s.resourceType
  rw [names_zip hids] at hdata
  have hnames : Record.Distinct (α := Value) [("self", .string links.current),
      ("first", .string links.first), ("last", .string links.last), ("next", .ofString? links.next),
      ("prev", .ofString? links.previous)] := by
    simp [Record.Distinct, Record.names]
  rw [listed, keyed_of_hasIds hids hd, Answer.ok_bind, jsonApi_renderer hmem, Answer.ok_bind,
    JsonApi.renderPage, hlinks]
  refine ⟨_, rfl, hdata, ?_, ?_⟩
  · exact string?_get?_withoutNull hnames "first"
  · exact (string?_get?_withoutNull hnames "next").trans (string?_ofString? _)

end Service

end DocumentApi
