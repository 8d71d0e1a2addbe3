import DocumentApi.Representation.JsonApi

/-!
The JSON:API format: how a document is shown at an address, and which bodies are read.
-/

set_option autoImplicit false

namespace DocumentApi

namespace Representation.JsonApi

/-- A document as it is shown at an address. -/
def shownAt (url : RelativeUrl) (id resourceType : String) (document : Document) : Value :=
  .object
    [("data", resource id resourceType document), ("links", .object [("self", .string url.text)])]

theorem renderOne_eq_ok {one : OneToRender} {url : RelativeUrl}
    (h : RelativeUrl.ofText one.url = .ok url) :
    renderOne one = .ok (shownAt url one.id one.resourceType one.document) := by
  rw [renderOne, h, Answer.ok_bind]
  rfl

theorem renderOne_eq_ok_iff {one : OneToRender} {body : Value} :
    renderOne one = .ok body ↔ ∃ url, RelativeUrl.ofText one.url = .ok url ∧
      body = shownAt url one.id one.resourceType one.document := by
  constructor
  · intro h
    obtain ⟨url, hurl, h⟩ := Answer.bind_eq_ok.mp h
    cases h
    exact ⟨url, hurl, rfl⟩
  · rintro ⟨url, hurl, rfl⟩
    exact renderOne_eq_ok hurl

/-- A body with data of a type that have attributes. -/
def Envelope (resourceType : String) (body : Value) (data attributes : Record Value) : Prop :=
  ∃ fields, body = .object fields ∧ Record.get? fields "data" = some (.object data) ∧
    data.get? "type" = some (.string resourceType) ∧
    data.get? "attributes" = some (.object attributes)

theorem readData_eq_ok {resourceType : String} {body : Value} {data attributes : Record Value}
    (h : Envelope resourceType body data attributes) :
    readData body resourceType = .ok (data, attributes) := by
  obtain ⟨fields, rfl, hdata, htype, hattributes⟩ := h
  simp [readData, hdata, htype, hattributes]

theorem readData_cases (body : Value) (resourceType : String) :
    (∃ data attributes, Envelope resourceType body data attributes) ∨
    ∃ detail, readData body resourceType = refused detail := by
  unfold readData
  split
  · rename_i fields
    split
    · rename_i data hdata
      split
      · exact Or.inr ⟨_, rfl⟩
      · rename_i htype
        split
        · rename_i attributes hattributes
          exact Or.inl ⟨data, attributes, fields, rfl, hdata, by simpa using htype, hattributes⟩
        · exact Or.inr ⟨_, rfl⟩
    · exact Or.inr ⟨_, rfl⟩
  · exact Or.inr ⟨_, rfl⟩

theorem parseCreate_cases (b : BodyToCreate) :
    (∃ data attributes, Envelope b.resourceType b.body data attributes ∧
      parseCreate b = .ok (.object attributes)) ∨
    ((∀ data attributes, ¬ Envelope b.resourceType b.body data attributes) ∧
      ∃ detail, parseCreate b = refused detail) := by
  rcases readData_cases b.body b.resourceType with ⟨data, attributes, h⟩ | ⟨detail, hrefused⟩
  · exact Or.inl ⟨data, attributes, h, by rw [parseCreate, readData_eq_ok h]; rfl⟩
  · refine Or.inr ⟨fun data attributes h => ?_, detail, by rw [parseCreate, hrefused]; rfl⟩
    rw [readData_eq_ok h] at hrefused
    cases hrefused

theorem parseUpdate_cases (b : BodyToUpdate) :
    (∃ data attributes, Envelope b.resourceType b.body data attributes ∧
      data.get? "id" = some (.string b.id) ∧ parseUpdate b = .ok (.object attributes)) ∨
    ((∀ data attributes, Envelope b.resourceType b.body data attributes →
        data.get? "id" ≠ some (.string b.id)) ∧
      ∃ detail, parseUpdate b = refused detail) := by
  rcases readData_cases b.body b.resourceType with ⟨data, attributes, h⟩ | ⟨detail, hrefused⟩
  · have hread := readData_eq_ok h
    have honly : ∀ data' attributes', Envelope b.resourceType b.body data' attributes' →
        data' = data := by
      intro data' attributes' h'
      have hread' := readData_eq_ok h'
      rw [hread] at hread'
      cases hread'
      rfl
    rw [parseUpdate, hread, Answer.ok_bind]
    dsimp only
    by_cases hid : data.get? "id" = some (.string b.id)
    · refine Or.inl ⟨data, attributes, h, hid, ?_⟩
      rw [hid]
      exact if_pos rfl
    · refine Or.inr ⟨fun data' attributes' h' => honly data' attributes' h' ▸ hid, ?_⟩
      split
      · rename_i other hother
        have hne : other ≠ b.id := fun he => hid (he ▸ hother)
        rw [if_neg hne]
        exact ⟨_, rfl⟩
      · exact ⟨_, rfl⟩
  · refine Or.inr ⟨fun data attributes h => ?_, detail, by rw [parseUpdate, hrefused]; rfl⟩
    rw [readData_eq_ok h] at hrefused
    cases hrefused

/-- A document that is shown under an identifier is read as its own change. -/
theorem parseUpdate_shownAt (url : RelativeUrl) (id resourceType : String) (document : Document) :
    parseUpdate ⟨shownAt url id resourceType document, resourceType, id⟩ =
      .ok (.object document) := by
  have henvelope : Envelope resourceType (shownAt url id resourceType document)
      [("id", .string id), ("type", .string resourceType), ("attributes", .object document)]
      document := ⟨_, rfl, rfl, rfl, rfl⟩
  rw [parseUpdate, readData_eq_ok henvelope, Answer.ok_bind]
  exact if_pos rfl

end Representation.JsonApi

end DocumentApi
