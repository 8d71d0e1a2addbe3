import DocumentApi.Proofs.Service.Standard
import DocumentApi.Proofs.Store.KeyedMap

/-!
The standard service over a collection that gives out its identifiers is a map from keys to records.
`Step` says what each request for a single document may answer and make of the map, with bodies in the
JSON:API format; `Agrees` joins the steps of a run. One request is a step (`ends_answer_standard`),
and so a run from an empty collection is one of the map (`answers_agree`).
-/

set_option autoImplicit false

namespace DocumentApi

namespace Service

open Collection DocumentApi.Representation

variable {σ : Type}

inductive SingleRequest where
  | create (r : CreateRequest)
  | get (r : GetRequest)
  | update (r : UpdateRequest)
  | delete (id : String)

def answer (s : Service σ) : SingleRequest → SessionAction σ Response
  | .create r => s.create r
  | .get r => s.get r
  | .update r => s.update r
  | .delete id => s.delete id

/-- The answers to requests made one after the other, and the session that they leave. -/
def answers (s : Service σ) : List SingleRequest → Session σ → List (Answer Response) × Session σ
  | [], session => ([], session)
  | r :: rest, session =>
    let (first, after) := outcome (s.answer r) session
    let (others, last) := s.answers rest after
    (first :: others, last)

/-- A request in the form that is shown by default, at an address that makes sense: it asks for no
selection of fields, and a document to create leaves its identifier to the store. -/
def Plain : SingleRequest → Prop
  | .create r => r.contentType = none ∧ r.accept = none ∧ RelativeUrl.Sound r.url ∧
      ∀ resourceType data attributes, JsonApi.Envelope resourceType r.body data attributes →
        attributes.get? "_id" = none ∨ attributes.get? "_id" = some .null
  | .get r => r.accept = none ∧ RelativeUrl.Sound r.url ∧ "fields" ∉ r.params.map (·.1)
  | .update r => r.contentType = none ∧ r.accept = none ∧ RelativeUrl.Sound r.url ∧
      "fields" ∉ r.params.map (·.1) ∧ r.noContent = false
  | .delete _ => True

/-- A body with the record of a key and the key itself for attributes, under the identifier of the
request, at an address. -/
def ShowsOne (entity address id key : String) (record : Record Value) (body : Value) : Prop :=
  ∃ (url : RelativeUrl) (attributes : Record Value), RelativeUrl.ofText address = .ok url ∧
    attributes.get? "_id" = some (.string key) ∧ attributes.erase "_id" = record ∧
    body = .object
      [("data", .object
        [("id", .string id), ("type", .string entity), ("attributes", .object attributes)]),
        ("links", .object [("self", .string url.text)])]

/-- What a request may answer over a map, and make of it. -/
inductive Step (entity : String) (m : Record Document) :
    SingleRequest → Answer Response → Record Document → Prop where
  | created (r : CreateRequest) (data attributes : Record Value) (key location : String)
      (body : Value) (hbody : JsonApi.Envelope entity r.body data attributes)
      (hfresh : m.get? key = none) (hlocation : locationOf r.url key = .ok location)
      (hshows : ShowsOne entity location key key (attributes.erase "_id") body) :
    Step entity m (.create r) (.ok ⟨201, body, some "application/vnd.api+json", some location⟩)
      (m.set key (attributes.erase "_id"))
  | createRefused (r : CreateRequest) (p : Problem)
      (hbody : ∀ data attributes, ¬ JsonApi.Envelope entity r.body data attributes)
      (hstatus : p.status = 400) : Step entity m (.create r) (.error (.problem p)) m
  | found (r : GetRequest) (record : Record Value) (body : Value)
      (hget : m.get? (keyOf r.id) = some record)
      (hshows : ShowsOne entity r.url r.id (keyOf r.id) record body) :
    Step entity m (.get r) (.ok ⟨200, body, some "application/vnd.api+json", none⟩) m
  | notFound (r : GetRequest) (p : Problem) (hget : m.get? (keyOf r.id) = none)
      (hstatus : p.status = 404) : Step entity m (.get r) (.error (.problem p)) m
  | updateRefused (r : UpdateRequest) (p : Problem)
      (hbody : ∀ data attributes, JsonApi.Envelope entity r.body data attributes →
        data.get? "id" ≠ some (.string r.id))
      (hstatus : p.status = 400) : Step entity m (.update r) (.error (.problem p)) m
  | updateNotFound (r : UpdateRequest) (data attributes : Record Value) (p : Problem)
      (hbody : JsonApi.Envelope entity r.body data attributes)
      (hid : data.get? "id" = some (.string r.id)) (hget : m.get? (keyOf r.id) = none)
      (hstatus : p.status = 404) : Step entity m (.update r) (.error (.problem p)) m
  | unchanged (r : UpdateRequest) (data attributes record : Record Value)
      (hbody : JsonApi.Envelope entity r.body data attributes)
      (hid : data.get? "id" = some (.string r.id)) (hget : m.get? (keyOf r.id) = some record)
      (hsame : ∀ field ∈ attributes.erase "_id", record.get? field.1 = some field.2) :
    Step entity m (.update r) (.ok ⟨204, .null, none, none⟩) m
  | updated (r : UpdateRequest) (data attributes record merged : Record Value)
      (url : RelativeUrl) (body : Value) (hbody : JsonApi.Envelope entity r.body data attributes)
      (hid : data.get? "id" = some (.string r.id)) (hget : m.get? (keyOf r.id) = some record)
      (hdiffers : ∃ field ∈ attributes.erase "_id", record.get? field.1 ≠ some field.2)
      (hmerged : Merges (attributes.erase "_id") record merged)
      (hurl : RelativeUrl.ofText r.url = .ok url)
      (hshows : ShowsOne entity (url.keepParams ["fields"]).text r.id (keyOf r.id) merged body) :
    Step entity m (.update r) (.ok ⟨200, body, some "application/vnd.api+json", none⟩)
      (m.set (keyOf r.id) merged)
  | deleted (id : String) (record : Record Value) (hget : m.get? (keyOf id) = some record) :
    Step entity m (.delete id) (.ok ⟨204, .null, none, none⟩) (m.erase (keyOf id))
  | deleteNotFound (id : String) (p : Problem) (hget : m.get? (keyOf id) = none)
      (hstatus : p.status = 404) : Step entity m (.delete id) (.error (.problem p)) m

/-- The answers to a run of requests are those of steps of a map, one after the other. -/
inductive Agrees (entity : String) :
    Record Document → List SingleRequest → List (Answer Response) → Record Document → Prop where
  | done (m : Record Document) : Agrees entity m [] [] m
  | step {m next last : Record Document} {r : SingleRequest} {first : Answer Response}
      {rest : List SingleRequest} {others : List (Answer Response)}
      (h : Step entity m r first next) (hrest : Agrees entity next rest others last) :
    Agrees entity m (r :: rest) (first :: others) last

theorem showsOne_shownAt {entity address id key : String} {record : Record Value} {url : RelativeUrl}
    {document : Document} (hurl : RelativeUrl.ofText address = .ok url)
    (h : Shows document key record) :
    ShowsOne entity address id key record (JsonApi.shownAt url id entity document) :=
  ⟨url, document, hurl, h.id, h.fields, rfl⟩

section Standard
variable (entity : String) (whitelist : Whitelist) (reporter : Reporter) {c : Collection σ}
  {held : σ → List Document} {works : Nat → σ → Prop} {n : Nat} {s : σ}

/-! One request. -/

/-- A request is answered as over the map of the documents that are held, and leaves documents with
the map that it makes. -/
structure Follows (held : σ → List Document) (works : Nat → σ → Prop) (n : Nat) (s : σ)
    (r : SingleRequest) (answer : Answer Response) (after : σ) : Prop where
  keyed : Keyed (held after)
  works : works n after
  step : Step entity (entries (held s)) r answer (entries (held after))

section Single
variable (hc : c.Trusted held works) (h : Keyed (held s)) (hs : works (n + 1) s)
include hc h hs

theorem ends_get_standard {r : GetRequest} (hr : Plain (.get r)) :
    Ends ((standard (c.store .objectIdOrText) entity whitelist reporter).get r) s
      (Follows entity held works n s (.get r)) := by
  obtain ⟨haccept, ⟨url, -, hurl, -⟩, hfields⟩ := hr
  have hasked := askedFor_standard (c.store .objectIdOrText) entity whitelist reporter haccept hfields
  obtain ⟨found, left, hfind, hworks, hheld, hrel⟩ := findById_keyed hc h hs r.id
  have hkeyed : Keyed (held left) := hheld ▸ h
  have hleft : works n left := hc.serves.fewer n left hworks
  refine (ends_get _ r s).imp fun answer after hrun => ?_
  cases hrun with
  | refused failure hrefused => cases hasked.symm.trans hrefused
  | readFault fields representation fault after hok hread =>
    cases hasked.symm.trans hok
    cases hfind.symm.trans hread
  | absent fields representation after hok hread =>
    cases hasked.symm.trans hok
    cases hfind.symm.trans hread
    generalize hget : (entries (held s)).get? (keyOf r.id) = sought at hrel
    cases hrel with
    | none => exact ⟨hkeyed, hleft, hheld.symm ▸ .notFound r _ hget rfl⟩
  | shown fields representation document after hok hread =>
    cases hasked.symm.trans hok
    cases hfind.symm.trans hread
    generalize hget : (entries (held s)).get? (keyOf r.id) = sought at hrel
    cases hrel with
    | some hshows =>
      rw [shownOne_standard _ entity whitelist reporter hurl]
      exact ⟨hkeyed, hleft, hheld.symm ▸ .found r _ _ hget (showsOne_shownAt hurl hshows)⟩

theorem ends_delete_standard (id : String) :
    Ends ((standard (c.store .objectIdOrText) entity whitelist reporter).delete id) s
      (Follows entity held works n s (.delete id)) := by
  have hoffered := offered_standard (c.store .objectIdOrText) entity whitelist reporter .delete
  obtain ⟨removed, left, hdelete, hworks, hkeyed, hremoved, hentries⟩ := deleteById_keyed hc h hs id
  have hleft : works n left := hc.serves.fewer n left hworks
  refine (ends_delete _ id s).imp fun answer after hrun => ?_
  cases hrun with
  | refused failure hrefused => cases hoffered.symm.trans hrefused
  | fault fault after hok hrun => cases hdelete.symm.trans hrun
  | absent after hok hrun =>
    cases hdelete.symm.trans hrun
    have hget := hremoved.mp rfl
    refine ⟨hkeyed, hleft, ?_⟩
    rw [hentries, Record.erase_of_not_mem_names (Record.get?_eq_none_iff.mp hget)]
    exact .deleteNotFound id _ hget rfl
  | deleted removed after hok hne hrun =>
    cases hdelete.symm.trans hrun
    obtain ⟨record, hget⟩ := Option.ne_none_iff_exists'.mp fun hnone => hne (hremoved.mpr hnone)
    exact ⟨hkeyed, hleft, hentries ▸ .deleted id record hget⟩

theorem ends_create_standard {r : CreateRequest} (hr : Plain (.create r)) :
    Ends ((standard (c.store .objectIdOrText) entity whitelist reporter).create r) s
      (Follows entity held works n s (.create r)) := by
  obtain ⟨htype, haccept, hsound, hnoId⟩ := hr
  have hdrafted := drafted_standard (c.store .objectIdOrText) entity whitelist reporter htype haccept
  refine (ends_create _ r s).imp fun answer after hrun => ?_
  rcases JsonApi.parseCreate_cases ⟨r.body, entity⟩ with
    ⟨data, attributes, hbody, hparse⟩ | ⟨hbody, detail, hparse⟩
  · rw [hparse] at hdrafted
    obtain ⟨created, left, key, hinsert, hworks, hkeyed, hshows, hnone, hentries⟩ :=
      insert_keyed hc h hs (hnoId _ _ _ hbody)
    cases hrun with
    | refused failure hrefused => cases hdrafted.symm.trans hrefused
    | writeFault document representation fault after hok hwrite =>
      cases hdrafted.symm.trans hok
      cases hinsert.symm.trans hwrite
    | created document representation created after hok hwrite =>
      cases hdrafted.symm.trans hok
      cases hinsert.symm.trans hwrite
      obtain ⟨location, url, hlocation, hurl⟩ := locationOf_sound hsound key
      rw [announced_standard _ entity whitelist reporter hshows.id hlocation hurl]
      refine ⟨hkeyed, hworks, ?_⟩
      rw [hentries]
      exact .created r data attributes key location _ hbody hnone hlocation
        (showsOne_shownAt hurl hshows)
  · rw [hparse] at hdrafted
    cases hrun with
    | refused failure hrefused =>
      cases hdrafted.symm.trans hrefused
      exact ⟨h, hc.serves.fewer n s hs, .createRefused r _ hbody rfl⟩
    | writeFault document representation fault after hok hwrite => cases hdrafted.symm.trans hok
    | created document representation created after hok hwrite => cases hdrafted.symm.trans hok

omit hc h hs in
theorem accepted_cases {r : UpdateRequest} (hr : Plain (.update r)) :
    (∃ data attributes, JsonApi.Envelope entity r.body data attributes ∧
      data.get? "id" = some (.string r.id) ∧
      (standard (c.store .objectIdOrText) entity whitelist reporter).accepted r =
        .ok (attributes, jsonApi)) ∨
    ((∀ data attributes, JsonApi.Envelope entity r.body data attributes →
        data.get? "id" ≠ some (.string r.id)) ∧
      ∃ detail, (standard (c.store .objectIdOrText) entity whitelist reporter).accepted r =
        .error (.ofProblem .body detail)) := by
  rw [accepted_standard _ entity whitelist reporter hr.1 hr.2.1]
  rcases JsonApi.parseUpdate_cases ⟨r.body, entity, r.id⟩ with
    ⟨data, attributes, hbody, hid, hparse⟩ | ⟨hbody, detail, hparse⟩
  · rw [hparse]
    exact Or.inl ⟨data, attributes, hbody, hid, rfl⟩
  · rw [hparse]
    exact Or.inr ⟨hbody, detail, rfl⟩

/-- An update that the store was asked for is one of the map. -/
theorem mapUpdate_of_written {r : UpdateRequest}
    (w : Written (standard (c.store .objectIdOrText) entity whitelist reporter) r s) :
    Keyed (held w.after) ∧ works n w.after ∧
      MapUpdate (entries (held s)) (keyOf r.id) (w.patch.erase "_id") w.result
        (entries (held w.after)) := by
  obtain ⟨result, after, hwrite, hworks, hkeyed, hupdate⟩ :=
    updateById_keyed hc h hs r.id (identified r.id w.patch)
  rw [identified, Record.erase_set_self] at hupdate
  obtain ⟨patch, representation, _, _, haccepted, hanswered⟩ := w
  cases hwrite.symm.trans hanswered
  exact ⟨hkeyed, hc.serves.fewer n _ hworks, hupdate⟩

/-- A document that was changed is found again, as it is now. -/
theorem found_of_toShow {r : UpdateRequest}
    (w : ToShow (standard (c.store .objectIdOrText) entity whitelist reporter) r s) :
    ∃ record merged document left, (entries (held s)).get? (keyOf r.id) = some record ∧
      (∃ field ∈ w.patch.erase "_id", record.get? field.1 ≠ some field.2) ∧
      Merges (w.patch.erase "_id") record merged ∧
      outcome ((c.store .objectIdOrText).findById r.id none) w.after =
        (.ok (some document), left) ∧
      Shows document (keyOf r.id) merged ∧ Keyed (held left) ∧ works n left ∧
      entries (held left) = (entries (held s)).set (keyOf r.id) merged := by
  obtain ⟨hkeyed, hworks, hupdate⟩ :=
    mapUpdate_of_written entity whitelist reporter hc h hs w.toWritten
  obtain ⟨record, merged, hget, hdiffers, hmerged, hnext⟩ :=
    hupdate.of_modified w.found w.modified
  obtain ⟨found, left, hfind, hleft, hheld, hrel⟩ := findById_keyed hc hkeyed hworks r.id
  rw [hnext, Record.get?_set_self] at hrel
  cases hrel with
  | some hshows =>
    exact ⟨record, merged, _, left, hget, hdiffers, hmerged, hfind, hshows, hheld ▸ hkeyed, hleft,
      hheld ▸ hnext⟩

theorem ends_update_standard {r : UpdateRequest} (hr : Plain (.update r)) :
    Ends ((standard (c.store .objectIdOrText) entity whitelist reporter).update r) s
      (Follows entity held works n s (.update r)) := by
  refine (ends_update _ r s).imp fun answer after hrun => ?_
  rcases accepted_cases (c := c) entity whitelist reporter hr with
    ⟨data, attributes, hbody, hid, haccepted⟩ | ⟨hbody, detail, hrefused⟩
  · obtain ⟨-, -, ⟨url, own, hurl, hown⟩, hfields, hwanted⟩ := hr
    have hshown := projection_of_noFields
      (s := standard (c.store .objectIdOrText) entity whitelist reporter) hfields
    have hsame : ∀ w : Written (standard (c.store .objectIdOrText) entity whitelist reporter) r s,
        w.patch = attributes ∧ w.representation = jsonApi := by
      rintro ⟨patch, representation, result, left, hok, hanswered⟩
      cases haccepted.symm.trans hok
      exact ⟨rfl, rfl⟩
    cases hrun with
    | refused failure hrefused => cases haccepted.symm.trans hrefused
    | writeFault patch representation fault after hok hfault =>
      obtain ⟨result, left, hwrite, -⟩ := updateById_keyed hc h hs r.id (identified r.id patch)
      cases hwrite.symm.trans hfault
    | absent w hmatched =>
      obtain ⟨hkeyed, hworks, hupdate⟩ := mapUpdate_of_written entity whitelist reporter hc h hs w
      obtain ⟨hget, hnext⟩ := hupdate.of_not_matched hmatched
      refine ⟨hkeyed, hworks, ?_⟩
      rw [hnext]
      exact .updateNotFound r data attributes _ hbody hid hget rfl
    | silent w hmatched hquiet =>
      have hmodified : w.result.modified = 0 := by
        rcases hquiet with hzero | hsilent | hunreadable
        · exact hzero
        · cases hwanted.symm.trans hsilent
        · cases hunreadable
      obtain ⟨hkeyed, hworks, hupdate⟩ := mapUpdate_of_written entity whitelist reporter hc h hs w
      obtain ⟨record, hget, hunchanged, hnext⟩ := hupdate.of_not_modified hmatched hmodified
      rw [(hsame w).1] at hunchanged
      refine ⟨hkeyed, hworks, ?_⟩
      rw [hnext]
      exact .unchanged r data attributes record hbody hid hget hunchanged
    | fieldsRefused w failure hrefused => cases hshown.symm.trans hrefused
    | readFault w fields fault last hok hread =>
      cases hshown.symm.trans hok
      obtain ⟨_, _, _, _, -, -, -, hfind, -⟩ := found_of_toShow entity whitelist reporter hc h hs w
      cases hfind.symm.trans hread
    | vanished w fields last hok hread =>
      cases hshown.symm.trans hok
      obtain ⟨_, _, _, _, -, -, -, hfind, -⟩ := found_of_toShow entity whitelist reporter hc h hs w
      cases hfind.symm.trans hread
    | shown w fields document last hok hread =>
      cases hshown.symm.trans hok
      obtain ⟨record, merged, found, left, hget, hdiffers, hmerged, hfind, hshows, hkeyed, hworks,
        hnext⟩ := found_of_toShow entity whitelist reporter hc h hs w
      cases hfind.symm.trans hread
      obtain ⟨hpatch, hrepresentation⟩ := hsame w.toWritten
      rw [hpatch] at hdiffers hmerged
      obtain ⟨kept, hkept⟩ := RelativeUrl.ofText_keepParams hurl hown ["fields"]
      refine ⟨hkeyed, hworks, ?_⟩
      rw [hnext, hrepresentation, rendered_standard _ entity whitelist reporter hurl hkept]
      exact .updated r data attributes record merged url _ hbody hid hget hdiffers hmerged hurl
        (showsOne_shownAt hkept hshows)
  · obtain ⟨rfl, rfl⟩ := hrun.of_refused hrefused
    exact ⟨h, hc.serves.fewer n _ hs, .updateRefused r _ hbody rfl⟩

/-- One step of the run: any request is answered as over the map of the documents. -/
theorem ends_answer_standard {r : SingleRequest} (hr : Plain r) :
    Ends ((standard (c.store .objectIdOrText) entity whitelist reporter).answer r) s
      (Follows entity held works n s r) := by
  cases r with
  | create r => exact ends_create_standard entity whitelist reporter hc h hs hr
  | get r => exact ends_get_standard entity whitelist reporter hc h hs hr
  | update r => exact ends_update_standard entity whitelist reporter hc h hs hr
  | delete id => exact ends_delete_standard entity whitelist reporter hc h hs id

end Single

/-! Runs of requests. -/

/-- The induction is on the requests: each uses up at most one of the identifiers that are left. -/
theorem agrees_of_keyed (hc : c.Trusted held works) {requests : List SingleRequest}
    {session : Session σ} (h : Keyed (held session.store))
    (hs : works requests.length session.store) (hplain : ∀ r ∈ requests, Plain r) :
    let run := (standard (c.store .objectIdOrText) entity whitelist reporter).answers requests session
    Agrees entity (entries (held session.store)) requests run.1 (entries (held run.2.store)) := by
  induction requests generalizing session with
  | nil => exact .done _
  | cons r rest ih =>
    have hfollows := ends_answer_standard entity whitelist reporter hc h hs
      (hplain r List.mem_cons_self) session.log
    have hrest := ih hfollows.keyed hfollows.works fun other hother =>
      hplain other (List.mem_cons_of_mem r hother)
    exact .step hfollows.step hrest

/-- From an empty collection, any run of plain requests is answered as over a map that is empty at
first, and leaves the collection with the map that it makes. -/
theorem answers_agree (hc : c.Trusted held works) {requests : List SingleRequest}
    {session : Session σ} (hempty : held session.store = [])
    (hs : works requests.length session.store) (hplain : ∀ r ∈ requests, Plain r) :
    let run := (standard (c.store .objectIdOrText) entity whitelist reporter).answers requests session
    Agrees entity [] requests run.1 (entries (held run.2.store)) := by
  have hagrees := agrees_of_keyed entity whitelist reporter hc (hempty ▸ keyed_nil) hs hplain
  rwa [hempty] at hagrees

end Standard

/-! A run over notes, the first of which is given the identifier that ends in `abc`. -/

def noteSession : Session Memory := ⟨{ Memory.ofDocuments [] [] with issued := 0xabb }, []⟩

def noteBody (id : String) (attributes : Record Value) : Value :=
  .object [("data", .object
    [("type", .string "note"), ("id", .string id), ("attributes", .object attributes)])]

theorem attributes_noteBody {id resourceType : String} {given data attributes : Record Value}
    (h : JsonApi.Envelope resourceType (noteBody id given) data attributes) : attributes = given := by
  obtain ⟨fields, hbody, hdata, -, hattributes⟩ := h
  cases hbody
  cases hdata
  cases hattributes
  rfl

def noteRequests : List SingleRequest :=
  [.create ⟨noteBody "" [("title", .string "a"), ("_id", .null)], "/notes", none, none⟩,
    .get ⟨"000000000000000000000ABC", "/notes/1?x=1", [], none⟩,
    .update ⟨"000000000000000000000ABC",
      noteBody "000000000000000000000ABC" [("title", .string "a"), ("_id", .int 1)],
      "/notes/1?x=1", [], none, none, false⟩,
    .update ⟨"000000000000000000000abc",
      noteBody "000000000000000000000abc" [("done", .bool true)],
      "/notes/1?x=1", [], none, none, false⟩,
    .update ⟨"000000000000000000000abc", noteBody "abc" [], "/notes/1?x=1", [], none, none, false⟩,
    .update ⟨"abc", noteBody "abc" [], "/notes/1?x=1", [], none, none, false⟩,
    .create ⟨.list [], "/notes", none, none⟩,
    .delete "000000000000000000000abC",
    .get ⟨"000000000000000000000abc", "/notes/1?x=1", [], none⟩,
    .delete "000000000000000000000abc"]

theorem answers_agree_notes :
    let store := (Memory.collection Disturbance.none).store .objectIdOrText
    let run := (standard store "note" .unrestricted .byCode).answers noteRequests noteSession
    run.1.map (fun answer => answer.toOption.map (·.status)) =
      [some 201, some 200, some 204, some 200, none, none, none, some 204, none, none] ∧
    run.1[0]? = some (.ok ⟨201, .object
      [("data", .object [("id", .string "000000000000000000000abc"), ("type", .string "note"),
          ("attributes", .object
            [("title", .string "a"), ("_id", .string "000000000000000000000abc")])]),
        ("links", .object [("self", .string "/notes/000000000000000000000abc")])],
      some "application/vnd.api+json", some "/notes/000000000000000000000abc"⟩) ∧
    run.1[1]? = some (.ok ⟨200, .object
      [("data", .object [("id", .string "000000000000000000000ABC"), ("type", .string "note"),
          ("attributes", .object
            [("title", .string "a"), ("_id", .string "000000000000000000000abc")])]),
        ("links", .object [("self", .string "/notes/1?x=1")])],
      some "application/vnd.api+json", none⟩) ∧
    run.1[3]? = some (.ok ⟨200, .object
      [("data", .object [("id", .string "000000000000000000000abc"), ("type", .string "note"),
          ("attributes", .object [("title", .string "a"),
            ("_id", .string "000000000000000000000abc"), ("done", .bool true)])]),
        ("links", .object [("self", .string "/notes/1")])],
      some "application/vnd.api+json", none⟩) ∧
    Agrees "note" [] noteRequests run.1 (entries run.2.store.documents) := by
  refine ⟨by decide +kernel, by decide +kernel, by decide +kernel, by decide +kernel, ?_⟩
  have hnotes : RelativeUrl.Sound "/notes" :=
    RelativeUrl.sound_of_ascii (u := ⟨"/notes", [], ""⟩) rfl (by simp) (by simp) (by simp)
  have hnote : RelativeUrl.Sound "/notes/1?x=1" :=
    RelativeUrl.sound_of_ascii (u := ⟨"/notes/1", [("x", "1")], ""⟩) rfl (by simp) (by simp)
      (by simp)
  have hget (id : String) : Plain (.get ⟨id, "/notes/1?x=1", [], none⟩) := ⟨rfl, hnote, by simp⟩
  have hupdate (id : String) (body : Value) :
      Plain (.update ⟨id, body, "/notes/1?x=1", [], none, none, false⟩) :=
    ⟨rfl, rfl, hnote, by simp, rfl⟩
  have hcreate : Plain (.create ⟨noteBody "" [("title", .string "a"), ("_id", .null)], "/notes",
      none, none⟩) :=
    ⟨rfl, rfl, hnotes, fun _ _ _ hbody => Or.inr (by rw [attributes_noteBody hbody]; rfl)⟩
  have hlist : Plain (.create ⟨.list [], "/notes", none, none⟩) :=
    ⟨rfl, rfl, hnotes, fun _ _ _ hbody => by obtain ⟨_, hnone, -⟩ := hbody; cases hnone⟩
  have hplain : ∀ r ∈ noteRequests, Plain r := by
    simp only [noteRequests, List.forall_mem_cons]
    exact ⟨hcreate, hget _, hupdate _ _, hupdate _ _, hupdate _ _, hupdate _ _, hlist, trivial,
      hget _, trivial, by simp⟩
  have hempty : noteSession.store.documents = [] := rfl
  have hstocked : Memory.Stocked noteRequests.length noteSession.store :=
    ⟨rfl, by simp [hempty, ids], by decide +kernel⟩
  exact answers_agree "note" .unrestricted .byCode Memory.trusted hempty hstocked hplain

end Service

end DocumentApi
