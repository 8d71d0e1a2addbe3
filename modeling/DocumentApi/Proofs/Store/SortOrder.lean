import DocumentApi.Proofs.Store.Calls
import DocumentApi.Whitelist

/-!
The order that sort tokens ask for, and the one that a collection is asked for. A list of keys
orders documents by the first key that tells them apart (`byKeys_eq`), so that only the order of the
fields and the direction of each matter (`byKeys_congr`). Main statement: `findCall_ordered`.
-/

set_option autoImplicit false

universe u

namespace DocumentApi

namespace Record

variable {α : Type u}

theorem get?_append (r s : Record α) (name : String) :
    (r ++ s).get? name = (r.get? name).or (s.get? name) := by
  induction r with
  | nil => rfl
  | cons field rest ih => by_cases hk : field.1 = name <;> simp [get?, hk, ih]

/-- The last field of a name is the one that is kept. -/
theorem get?_merge (r s : Record α) (name : String) :
    (r.merge s).get? name = (get? s.reverse name).or (r.get? name) := by
  induction s generalizing r with
  | nil => simp [merge]
  | cons field rest ih =>
    rw [merge_cons, ih, List.reverse_cons, get?_append, Option.or_assoc]
    congr 1
    by_cases hk : field.1 = name
    · rw [← hk, get?_set_self]
      simp [get?]
    · rw [get?_set_of_ne (Ne.symm hk)]
      simp [get?, hk]

theorem get?_ofList (fields : List (String × α)) (name : String) :
    (ofList fields).get? name = get? fields.reverse name := by
  rw [ofList, get?_merge, get?_nil, Option.or_none]

theorem find?_names_set (p : String → Bool) (r : Record α) (name : String) (value : α) :
    (r.set name value).names.find? p = (r.names ++ [name]).find? p := by
  induction r with
  | nil => rfl
  | cons field rest ih =>
    obtain ⟨key, old⟩ := field
    simp only [names] at ih
    by_cases hk : key = name
    · subst hk
      cases hp : p key <;> simp [set, names, hp]
    · cases hp : p key <;> simp [set, names, hk, hp, ih]

/-- Each field has the place of the first of its name. -/
theorem find?_names_merge (p : String → Bool) (r s : Record α) :
    (r.merge s).names.find? p = (r.names ++ s.names).find? p := by
  induction s generalizing r with
  | nil => simp [merge, names]
  | cons field rest ih =>
    rw [merge_cons, ih, List.find?_append, find?_names_set, ← List.find?_append, List.append_assoc]
    rfl

theorem find?_names_ofList (p : String → Bool) (fields : List (String × α)) :
    (ofList fields).names.find? p = (names fields).find? p :=
  find?_names_merge p [] fields

end Record

/-- How documents compare by the value of each field, wherever it is found in them. -/
structure FieldOrder where
  compare : String → Document → Document → Ordering
  total : ∀ field, Std.TransCmp (compare field)

namespace FieldOrder

/-- Documents without a field come before those with it. -/
def presence : FieldOrder where
  compare field := compareOn fun document : Document => (document.contains field).toNat
  total _ := inferInstance

def directed (direction : Int) (result : Ordering) : Ordering :=
  if direction < 0 then result.swap else result

variable (order : FieldOrder)

/-- The order by keys, the first being the most significant. -/
def byKeys : List (String × Int) → Document → Document → Ordering
  | [], _, _ => .eq
  | (field, direction) :: rest, a, b =>
    (directed direction (order.compare field a b)).then (byKeys rest a b)

/-- The order by the field of a token, backwards if there is a minus in front of it. -/
def byToken (token : String) (a b : Document) : Ordering :=
  match token.toList with
  | '-' :: field => (order.compare (String.ofList field) a b).swap
  | _ => order.compare token a b

def byTokens : List String → Document → Document → Ordering
  | [], _, _ => .eq
  | token :: rest, a, b => (order.byToken token a b).then (byTokens rest a b)

def separates (a b : Document) (field : String) : Bool := order.compare field a b ≠ .eq

variable {order} {a b : Document}

theorem directed_eq_iff {direction : Int} {result : Ordering} :
    directed direction result = .eq ↔ result = .eq := by
  unfold directed
  split
  · cases result <;> decide
  · exact Iff.rfl

/-- The first field that tells the documents apart decides, in the direction of its first key. -/
theorem byKeys_eq (keys : List (String × Int)) :
    order.byKeys keys a b =
      ((Record.names keys).find? (order.separates a b)).elim .eq fun field =>
        directed ((Record.get? keys field).getD 1) (order.compare field a b) := by
  induction keys with
  | nil => rfl
  | cons key rest ih =>
    obtain ⟨field, direction⟩ := key
    have hnames : Record.names ((field, direction) :: rest) = field :: Record.names rest := rfl
    rw [byKeys, ih, hnames, List.find?_cons]
    by_cases hsame : order.compare field a b = .eq
    · have hsep : order.separates a b field = false := by simp [separates, hsame]
      rw [directed_eq_iff.mpr hsame, hsep]
      cases hfind : (Record.names rest).find? (order.separates a b) with
      | none => rfl
      | some other =>
        have hne : field ≠ other := by
          intro he
          have hother := List.find?_some hfind
          rw [← he, hsep] at hother
          cases hother
        simp [Record.get?, hne]
    · have hsep : order.separates a b field = true := by simp [separates, hsame]
      have hdecided : directed direction (order.compare field a b) ≠ .eq :=
        fun h => hsame (directed_eq_iff.mp h)
      rw [hsep]
      cases hresult : directed direction (order.compare field a b) with
      | eq => exact absurd hresult hdecided
      | lt => simp [Record.get?, hresult]
      | gt => simp [Record.get?, hresult]

/-- Keys with the fields in one order and with one direction for each order documents alike. -/
theorem byKeys_congr {keys others : List (String × Int)}
    (hnames : ∀ p, (Record.names keys).find? p = (Record.names others).find? p)
    (hget : ∀ field, Record.get? keys field = Record.get? others field) :
    order.byKeys keys a b = order.byKeys others a b := by
  simp only [byKeys_eq, hnames, hget]

end FieldOrder

namespace StoreQuery

open FieldOrder Whitelist

theorem sortKey_cases (token : String) :
    (∃ field, token = String.ofList ('-' :: field) ∧ sortKey token = (String.ofList field, -1)) ∨
      sortKey token = (token, 1) := by
  unfold sortKey
  split
  · rename_i field h
    exact .inl ⟨field, by rw [← h, String.ofList_toList], rfl⟩
  · exact .inr rfl

/-- A key can be spelled in one way only. -/
theorem sortKey_injective : Function.Injective sortKey := by
  intro token other h
  rcases sortKey_cases token with ⟨field, hdown, hkey⟩ | hkey <;>
    rcases sortKey_cases other with ⟨field', hdown', hkey'⟩ | hkey' <;>
    rw [hkey, hkey', Prod.mk.injEq] at h
  · rw [hdown, hdown', String.ofList_injective h.1]
  · cases h.2
  · cases h.2
  · exact h.1

theorem sortKey_snd (token : String) : (sortKey token).2 = 1 ∨ (sortKey token).2 = -1 := by
  rcases sortKey_cases token with ⟨field, -, hkey⟩ | hkey
  · exact .inr (congrArg Prod.snd hkey)
  · exact .inl (congrArg Prod.snd hkey)

theorem sortKey_fst (token : String) : (sortKey token).1 = sortField token := by
  simp only [sortKey, sortField]
  cases token.toList with
  | nil => rfl
  | cons c rest =>
    by_cases hc : c = '-'
    · subst hc
      rfl
    · simp [hc]

/-- The first of the tokens for a field. -/
def tokenFor? (tokens : List String) (field : String) : Option String :=
  tokens.find? fun token => sortField token = field

/-- The last of the tokens for the field of one of them. -/
def lastAlike (tokens : List String) (token : String) : String :=
  (tokenFor? tokens.reverse (sortField token)).getD token

section Keys
variable {order : FieldOrder} {a b : Document} {tokens : List String} {field : String}

theorem byToken_eq (token : String) :
    order.byToken token a b =
      directed (sortKey token).2 (order.compare (sortKey token).1 a b) := by
  simp only [byToken, sortKey]
  cases token.toList with
  | nil => rfl
  | cons c rest =>
    by_cases hc : c = '-'
    · subst hc
      rfl
    · simp [hc, directed]

theorem byTokens_eq (tokens : List String) :
    order.byTokens tokens a b = order.byKeys (tokens.map sortKey) a b := by
  induction tokens with
  | nil => rfl
  | cons token rest ih => rw [byTokens, List.map_cons, byKeys, ih, byToken_eq]

theorem names_map_sortKey (tokens : List String) :
    Record.names (tokens.map sortKey) = tokens.map sortField := by
  rw [Record.names, List.map_map]
  exact List.map_congr_left fun token _ => sortKey_fst token

theorem get?_map_sortKey (tokens : List String) (field : String) :
    Record.get? (tokens.map sortKey) field = (tokenFor? tokens field).map fun token =>
      (sortKey token).2 := by
  induction tokens with
  | nil => rfl
  | cons token rest ih =>
    rw [List.map_cons, Record.get?, sortKey_fst, tokenFor?, List.find?_cons, ih]
    by_cases h : sortField token = field <;> simp [h, tokenFor?]

theorem get?_ofSort (tokens : List String) (field : String) :
    Record.get? (ofSort tokens) field = (tokenFor? tokens.reverse field).map fun token =>
      (sortKey token).2 := by
  rw [ofSort, Record.get?_ofList, ← List.map_reverse, get?_map_sortKey]

theorem find?_names_ofSort (p : String → Bool) (tokens : List String) :
    (Record.names (ofSort tokens)).find? p = (tokens.map sortField).find? p := by
  rw [ofSort, Record.find?_names_ofList, names_map_sortKey]

theorem sortField_of_tokenFor? {token : String} (h : tokenFor? tokens field = some token) :
    sortField token = field := by
  simpa using List.find?_some h

theorem tokenFor?_reverse_eq_none_iff :
    tokenFor? tokens.reverse field = none ↔ tokenFor? tokens field = none := by
  simp [tokenFor?]

theorem sortField_lastAlike (tokens : List String) (token : String) :
    sortField (lastAlike tokens token) = sortField token := by
  unfold lastAlike
  cases h : tokenFor? tokens.reverse (sortField token) with
  | none => rfl
  | some last => exact sortField_of_tokenFor? h

theorem tokenFor?_map_lastAlike (tokens : List String) (field : String) :
    tokenFor? (tokens.map (lastAlike tokens)) field = tokenFor? tokens.reverse field := by
  have hmap : tokenFor? (tokens.map (lastAlike tokens)) field =
      (tokenFor? tokens field).map (lastAlike tokens) := by
    rw [tokenFor?, List.find?_map, tokenFor?]
    simp only [Function.comp_def, sortField_lastAlike]
  rw [hmap]
  cases hfirst : tokenFor? tokens field with
  | none => exact (tokenFor?_reverse_eq_none_iff.mpr hfirst).symm
  | some token =>
    rw [Option.map_some, lastAlike, sortField_of_tokenFor? hfirst]
    cases hlast : tokenFor? tokens.reverse field with
    | none =>
      rw [tokenFor?_reverse_eq_none_iff.mp hlast] at hfirst
      cases hfirst
    | some last => rfl

/-- The fields come in the order of their first tokens, each in the direction of its last. -/
theorem byKeys_ofSort_eq (tokens : List String) :
    order.byKeys (ofSort tokens) a b =
      order.byTokens (tokens.map (lastAlike tokens)) a b := by
  rw [byTokens_eq]
  apply byKeys_congr
  · intro p
    have hfields : (tokens.map (lastAlike tokens)).map sortField = tokens.map sortField := by
      simp only [List.map_map, Function.comp_def, sortField_lastAlike]
    rw [find?_names_ofSort, names_map_sortKey, hfields]
  · intro field
    rw [get?_ofSort, get?_map_sortKey, tokenFor?_map_lastAlike]

theorem presence_compare (name field : String) :
    presence.compare name [] [(field, .null)] = if name = field then .lt else .eq := by
  by_cases h : name = field
  · have hfound : Record.get? [(field, Value.null)] name = some .null := if_pos h.symm
    rw [if_pos h]
    simp only [presence, compareOn, Record.contains, hfound]
    rfl
  · have hmissing : Record.get? [(field, Value.null)] name = none := if_neg (Ne.symm h)
    rw [if_neg h]
    simp only [presence, compareOn, Record.contains, hmissing]
    rfl

/-- Two documents of which only one has a field show the direction of that field. -/
theorem byKeys_presence (keys : List (String × Int)) (field : String) :
    presence.byKeys keys [] [(field, .null)] =
      (Record.get? keys field).elim .eq fun direction => directed direction .lt := by
  induction keys with
  | nil => rfl
  | cons key rest ih =>
    obtain ⟨name, direction⟩ := key
    rw [byKeys, ih, presence_compare, Record.get?]
    by_cases h : name = field
    · rw [if_pos h, if_pos h]
      unfold directed
      by_cases hd : direction < 0 <;> simp [hd]
    · rw [if_neg h, if_neg h, directed_eq_iff.mpr rfl]
      rfl

/-- Two tokens for one field in one direction are the same. -/
theorem eq_of_directed {token other : String} (hfield : sortField token = sortField other)
    (h : directed (sortKey token).2 .lt = directed (sortKey other).2 .lt) : token = other := by
  apply sortKey_injective
  apply Prod.ext
  · rw [sortKey_fst, sortKey_fst, hfield]
  · rcases sortKey_snd token with hup | hdown <;> rcases sortKey_snd other with hup' | hdown' <;>
      simp_all [directed]

/-- Documents are ordered as the tokens say exactly if the first token for every field is the last
too. -/
theorem byKeys_ofSort_eq_iff (tokens : List String) :
    (∀ (order : FieldOrder) a b, order.byKeys (ofSort tokens) a b = order.byTokens tokens a b) ↔
      ∀ field, tokenFor? tokens field = tokenFor? tokens.reverse field := by
  constructor
  · intro h field
    have hplaced := h presence [] [(field, .null)]
    rw [byTokens_eq, byKeys_presence, byKeys_presence, get?_ofSort, get?_map_sortKey] at hplaced
    cases hfirst : tokenFor? tokens field with
    | none => exact (tokenFor?_reverse_eq_none_iff.mpr hfirst).symm
    | some first =>
      cases hlast : tokenFor? tokens.reverse field with
      | none =>
        rw [tokenFor?_reverse_eq_none_iff.mp hlast] at hfirst
        cases hfirst
      | some last =>
        rw [hfirst, hlast] at hplaced
        have hfield : sortField first = sortField last :=
          (sortField_of_tokenFor? hfirst).trans (sortField_of_tokenFor? hlast).symm
        rw [eq_of_directed hfield hplaced.symm]
  · intro h order a b
    rw [byTokens_eq]
    apply byKeys_congr
    · intro p
      rw [find?_names_ofSort, names_map_sortKey]
    · intro field
      rw [get?_ofSort, get?_map_sortKey, h field]

end Keys

/-- The keys by which a call asks for documents in order. -/
def keysOf : Call → Record Int
  | .find _ _ _ _ sort => sort.getD []
  | _ => []

theorem keysOf_findCall (request : FindRequest) :
    keysOf (Collection.findCall request) = request.sort.getD [] := by
  rw [Collection.findCall, keysOf]
  cases request.sort with
  | none => rfl
  | some keys => cases keys <;> rfl

/-- A collection is asked for documents in the order of the tokens, each in the direction of the last
token for its field. Whatever the order of the values of each field, that is what the tokens say,
exactly if the first token for every field is the last too. -/
theorem findCall_ordered (tokens : List String) :
    (∀ request : FindRequest,
      keysOf (Collection.findCall { request with sort := some (ofSort tokens) }) =
        ofSort tokens) ∧
    (∀ (order : FieldOrder) a b, order.byKeys (ofSort tokens) a b =
      order.byTokens (tokens.map (lastAlike tokens)) a b) ∧
    ((∀ (order : FieldOrder) a b,
        order.byKeys (ofSort tokens) a b = order.byTokens tokens a b) ↔
      ∀ field, tokenFor? tokens field = tokenFor? tokens.reverse field) := by
  refine ⟨?_, ?_, byKeys_ofSort_eq_iff tokens⟩
  · intro request
    exact keysOf_findCall _
  · intro order a b
    exact byKeys_ofSort_eq tokens

/-- A field asked for in both directions is placed by the second of them. -/
theorem byKeys_ofSort_twice :
    ofSort ["name", "-name"] = [("name", -1)] ∧
    presence.byTokens ["name", "-name"] [] [("name", .string "Tom")] = .lt ∧
    presence.byKeys (ofSort ["name", "-name"]) [] [("name", .string "Tom")] = .gt := by
  refine ⟨by decide, by decide, by decide⟩

end StoreQuery

end DocumentApi
