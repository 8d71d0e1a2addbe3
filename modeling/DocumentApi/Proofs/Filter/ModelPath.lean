import DocumentApi.FieldPath

/-!
The dotted paths of a model are those of every example of it. Either list is read off the places of
the model's fields on all levels, joined from the names that lead to them: the places that are no
models themselves, or all of them, a model just before its own fields. Main statement:
`keys_of_example`.
-/

set_option autoImplicit false

namespace DocumentApi

/-- A field on some level of a model: the names that lead to it, and whether it holds a model. -/
structure Place where
  names : List String
  isModel : Bool
deriving DecidableEq, Repr

def Place.path (p : Place) : String := ".".intercalate p.names

namespace FieldType

mutual

/-- The place of a field and those below it. -/
def places (names : List String) : FieldType → List Place
  | model fields => ⟨names, true⟩ :: fieldPlaces names fields
  | _ => [⟨names, false⟩]

def fieldPlaces (above : List String) : List (FieldName × FieldType) → List Place
  | [] => []
  | (name, type) :: rest => places (above ++ [name.shown]) type ++ fieldPlaces above rest

end

end FieldType

def Model.places (model : Model) : List Place := FieldType.fieldPlaces [] model

mutual

/-- What a field may hold in an example: an example of its model, or anything but an object where it
is not declared to hold a model. -/
inductive FieldType.Holds : FieldType → Value → Prop
  | model {fields : Model} {doc : Document} (h : Model.Example fields doc) :
      FieldType.Holds (.model fields) (.object doc)
  | other {type : FieldType} {v : Value} (htype : ∀ fields, type ≠ .model fields)
      (hv : ∀ doc, v ≠ .object doc) : FieldType.Holds type v

/-- A document with the fields of a model, under their public names and in their order. -/
inductive Model.Example : Model → Document → Prop
  | nil : Model.Example [] []
  | cons {name : FieldName} {type : FieldType} {v : Value} {fields : Model} {doc : Document}
      (hv : type.Holds v) (hdoc : Model.Example fields doc) :
      Model.Example ((name, type) :: fields) ((name.shown, v) :: doc)

end

/-! Paths below a field. -/

theorem intercalate_append_singleton {separator : String} {names : List String} (h : names ≠ [])
    (last : String) :
    separator.intercalate (names ++ [last]) = separator.intercalate names ++ separator ++ last := by
  rw [String.intercalate_append_of_ne_nil h (List.cons_ne_nil last []),
    String.intercalate_singleton]

/-- The paths of fields under the path of what has them. -/
theorem map_flatMap_paths {α : Type} {paths : String → α → List String}
    (happend : ∀ above name field,
      paths (above ++ name) field = (paths name field).map fun path => above ++ path)
    {names : List String} (h : names ≠ []) (fields : List (String × α)) :
    ((fields.flatMap fun field => paths field.1 field.2).map fun path =>
      ".".intercalate names ++ "." ++ path) =
        fields.flatMap fun field => paths (".".intercalate (names ++ [field.1])) field.2 := by
  rw [List.map_flatMap]
  congr 1
  funext field
  rw [intercalate_append_singleton h, happend]

theorem Value.paths_append (withParent : Bool) (above name : String) (v : Value) :
    Value.paths withParent (above ++ name) v =
      (Value.paths withParent name v).map fun path => above ++ path := by
  cases v with
  | object fields => cases withParent <;> simp [Value.paths, String.append_assoc]
  | _ => rfl

theorem Value.fieldPaths_eq_flatMap (withParent : Bool) (doc : Document) :
    Value.fieldPaths withParent doc = doc.flatMap fun field =>
      Value.paths withParent field.1 field.2 := by
  induction doc with
  | nil => rfl
  | cons field rest ih => rw [Value.fieldPaths, ih, List.flatMap_cons]

theorem FieldShape.paths_append (above name : String) (shape : FieldShape) :
    FieldShape.paths (above ++ name) shape =
      (FieldShape.paths name shape).map fun path => above ++ path := by
  cases shape with
  | leaf => rfl
  | model fields => simp [FieldShape.paths, String.append_assoc]

theorem FieldShape.modelPaths_eq_flatMap (fields : List (String × FieldShape)) :
    FieldShape.modelPaths fields = fields.flatMap fun field =>
      FieldShape.paths field.1 field.2 := by
  induction fields with
  | nil => rfl
  | cons field rest ih => rw [FieldShape.modelPaths, ih, List.flatMap_cons]

/-! Places. -/

/-- The paths of the places that are shown: those of models only with parents. -/
def shownPaths (withParent : Bool) (places : List Place) : List String :=
  (places.filter fun p => withParent || !p.isModel).map Place.path

theorem shownPaths_append (withParent : Bool) (places others : List Place) :
    shownPaths withParent (places ++ others) =
      shownPaths withParent places ++ shownPaths withParent others := by
  rw [shownPaths, List.filter_append, List.map_append]
  rfl

theorem shownPaths_leaf (withParent : Bool) (names : List String) :
    shownPaths withParent [⟨names, false⟩] = [".".intercalate names] := by
  cases withParent <;> rfl

theorem shownPaths_model (withParent : Bool) (names : List String) (below : List Place) :
    shownPaths withParent (⟨names, true⟩ :: below) =
      (if withParent then [".".intercalate names] else []) ++ shownPaths withParent below := by
  cases withParent <;> rfl

theorem FieldType.places_of_ne_model {type : FieldType} (h : ∀ fields, type ≠ .model fields)
    (names : List String) : type.places names = [⟨names, false⟩] := by
  cases type with
  | model fields => exact absurd rfl (h fields)
  | _ => rfl

theorem Value.paths_of_ne_object {v : Value} (h : ∀ doc, v ≠ .object doc) (withParent : Bool)
    (name : String) : Value.paths withParent name v = [name] := by
  cases v with
  | object doc => exact absurd rfl (h doc)
  | _ => rfl

-- Both lists follow the recursion of the types, for any names above: a model's fields have one
-- name more above them.
mutual

theorem FieldType.paths_shape {names : List String} (h : names ≠ []) : ∀ type : FieldType,
    FieldShape.paths (".".intercalate names) type.shape = shownPaths false (type.places names)
  | .plain => rfl
  | .optional _ => rfl
  | .list _ => rfl
  | .model fields => by
    rw [FieldType.shape, FieldShape.paths, FieldType.places, shownPaths_model,
      FieldShape.modelPaths_eq_flatMap, map_flatMap_paths FieldShape.paths_append h,
      FieldType.flatMap_shapes names fields]
    rfl

theorem FieldType.flatMap_shapes (above : List String) : ∀ fields : Model,
    ((FieldType.shapes fields).flatMap fun field =>
      FieldShape.paths (".".intercalate (above ++ [field.1])) field.2) =
        shownPaths false (FieldType.fieldPlaces above fields)
  | [] => rfl
  | (name, type) :: rest => by
    rw [FieldType.shapes, List.flatMap_cons, FieldType.fieldPlaces, shownPaths_append,
      FieldType.paths_shape (by simp) type, FieldType.flatMap_shapes above rest]

end

mutual

theorem FieldType.Holds.paths_eq (withParent : Bool) {names : List String} (h : names ≠ []) :
    ∀ {type : FieldType} {v : Value}, type.Holds v →
      Value.paths withParent (".".intercalate names) v =
        shownPaths withParent (type.places names)
  | _, _, .model hdoc => by
    rw [Value.paths, FieldType.places, shownPaths_model, Value.fieldPaths_eq_flatMap,
      map_flatMap_paths (Value.paths_append withParent) h, hdoc.flatMap_paths withParent names]
  | _, _, .other htype hv => by
    rw [Value.paths_of_ne_object hv, FieldType.places_of_ne_model htype, shownPaths_leaf]

theorem Model.Example.flatMap_paths (withParent : Bool) (above : List String) :
    ∀ {fields : Model} {doc : Document}, Model.Example fields doc →
      (doc.flatMap fun field =>
        Value.paths withParent (".".intercalate (above ++ [field.1])) field.2) =
          shownPaths withParent (FieldType.fieldPlaces above fields)
  | _, _, .nil => rfl
  | _, _, .cons hv hdoc => by
    rw [List.flatMap_cons, FieldType.fieldPlaces, shownPaths_append,
      hv.paths_eq withParent (by simp), hdoc.flatMap_paths withParent above]

end

namespace Model

theorem keys_eq (model : Model) : model.keys = shownPaths false model.places := by
  rw [keys, FieldShape.modelPaths_eq_flatMap]
  exact FieldType.flatMap_shapes [] model

theorem Example.fieldPaths_eq {model : Model} {doc : Document} (h : model.Example doc)
    (withParent : Bool) : Value.fieldPaths withParent doc = shownPaths withParent model.places := by
  rw [Value.fieldPaths_eq_flatMap]
  exact h.flatMap_paths withParent []

/-- An example of a model has the dotted paths of the model, which are those of the places without
fields of their own; with parents it has the paths of all places, a model's just before those of
its fields, if it has any. -/
theorem keys_of_example {model : Model} {doc : Document} (h : model.Example doc) :
    Value.fieldPaths false doc = model.keys ∧
    model.keys = (model.places.filter fun p => !p.isModel).map Place.path ∧
    Value.fieldPaths true doc = model.places.map Place.path := by
  refine ⟨?_, ?_, ?_⟩
  · rw [h.fieldPaths_eq, keys_eq]
  · exact keys_eq model
  · have hall : model.places.filter (fun p => true || !p.isModel) = model.places :=
      List.filter_eq_self.mpr fun _ _ => rfl
    rw [h.fieldPaths_eq, shownPaths, hall]

/-- A model with other names outside, one of them empty, with models that may be missing or stand in
a list, and with one that has no fields. -/
def ownedCat : Model :=
  [(⟨"name", none⟩, .plain),
    (⟨"owner", none⟩, .model
      [(⟨"home", some "address"⟩, .model [(⟨"zip_code", some "zipCode"⟩, .plain)]),
        (⟨"remarks", some ""⟩, .model [])]),
    (⟨"previous", none⟩, .optional (.model [(⟨"name", none⟩, .plain)])),
    (⟨"kittens", none⟩, .list (.model [(⟨"name", none⟩, .plain)]))]

def ownedTom : Document :=
  [("name", .string "Tom"),
    ("owner", .object [("address", .object [("zipCode", .int 10115)]), ("remarks", .object [])]),
    ("previous", .null), ("kittens", .list [.object [("name", .string "Tim")]])]

theorem keys_of_example_ownedTom :
    ownedCat.Example ownedTom ∧
    Value.fieldPaths false ownedTom = ["name", "owner.address.zipCode", "previous", "kittens"] ∧
    Value.fieldPaths true ownedTom = ["name", "owner", "owner.address", "owner.address.zipCode",
      "owner.remarks", "previous", "kittens"] := by
  have haddress : FieldType.Holds (.model [(⟨"zip_code", some "zipCode"⟩, .plain)])
      (.object [("zipCode", .int 10115)]) :=
    .model (.cons (.other nofun nofun) .nil)
  have howner : FieldType.Holds (.model
      [(⟨"home", some "address"⟩, .model [(⟨"zip_code", some "zipCode"⟩, .plain)]),
        (⟨"remarks", some ""⟩, .model [])])
      (.object [("address", .object [("zipCode", .int 10115)]), ("remarks", .object [])]) :=
    .model (.cons haddress (.cons (.model .nil) .nil))
  have h : ownedCat.Example ownedTom :=
    .cons (.other nofun nofun) (.cons howner
      (.cons (.other nofun nofun) (.cons (.other nofun nofun) .nil)))
  obtain ⟨hflat, hkeys, hall⟩ := keys_of_example h
  exact ⟨h, (hflat.trans hkeys).trans (by decide), hall.trans (by decide)⟩

end Model

end DocumentApi
