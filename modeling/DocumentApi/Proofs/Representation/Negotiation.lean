import DocumentApi.Representation.Registry
import DocumentApi.Text.Lowercase.Lemmas

/-!
The choice of a representation. An item of a header counts if it has a media type and a positive
quality, and it is served by a candidate if its media type is a wildcard or the candidate's content
type. Of the items that are served, the one of the highest quality decides, the first of them if
there are several. Main statement: `negotiate_iff`.
-/

set_option autoImplicit false

namespace DocumentApi

namespace MediaRange

open Text

/-! Items of a header. -/

def NamesQuality (param : List Char) : Prop := lower (strip (cut '=' (strip param)).1) = ['q']

instance (param : List Char) : Decidable (NamesQuality param) :=
  inferInstanceAs (Decidable (_ = _))

/-- The number behind the name of a parameter, if it is one. -/
def number? (param : List Char) : Option Binary64 :=
  Numeral.readFloat? ((cut '=' (strip param)).2.getD [])

/-- The quality that the parameters of an item give it, if they give it any. -/
inductive HasQuality (params : List (List Char)) : Binary64 → Prop where
  | unstated (h : ∀ param ∈ params, ¬ NamesQuality param) : HasQuality params one
  | stated {before after : List (List Char)} {param : List Char} {quality : Binary64}
      (split : params = before ++ param :: after) (names : NamesQuality param)
      (last : ∀ other ∈ after, ¬ NamesQuality other) (number : number? param = some quality) :
      HasQuality params quality

/-- The item at a place of a header, if it has a media type and a positive quality. -/
structure IsItem (header : String) (position : Nat) (mediaType : List Char) (quality : Binary64) :
    Prop where
  place : ∃ item first params, (pieces ',' header.toList)[position]? = some item ∧
    pieces ';' item = first :: params ∧ strip first = mediaType ∧ HasQuality params quality
  nonempty : mediaType ≠ []
  positive : quality.isPositive = true

theorem quality?_strip (param : List Char) :
    quality? (strip param) =
      if NamesQuality param then some ((number? param).getD (Binary64.zero false)) else none := rfl

theorem findSome?_reverse_iff {α β : Type} {f : α → Option β} {as : List α} {b : β} :
    as.reverse.findSome? f = some b ↔
      ∃ before a after, as = before ++ a :: after ∧ f a = some b ∧ ∀ c ∈ after, f c = none := by
  rw [List.findSome?_eq_some_iff]
  constructor
  · rintro ⟨after, a, before, hsplit, hfound, hnone⟩
    refine ⟨before.reverse, a, after.reverse, ?_, hfound, ?_⟩
    · rw [← List.reverse_inj, hsplit]
      simp
    · intro c hc
      exact hnone c (List.mem_reverse.mp hc)
  · rintro ⟨before, a, after, rfl, hfound, hnone⟩
    refine ⟨after.reverse, a, before.reverse, by simp, hfound, ?_⟩
    intro c hc
    exact hnone c (List.mem_reverse.mp hc)

theorem qualityOf_eq (params : List (List Char)) :
    qualityOf params = (params.reverse.findSome? fun param => quality? (strip param)).getD one := by
  rw [qualityOf, ← List.map_reverse, List.findSome?_map]
  rfl

theorem qualityOf_iff {params : List (List Char)} {quality : Binary64}
    (hpositive : quality.isPositive = true) :
    qualityOf params = quality ↔ HasQuality params quality := by
  have hnone : ∀ param, quality? (strip param) = none ↔ ¬ NamesQuality param := by
    intro param
    rw [quality?_strip]
    split <;> simp_all
  rw [qualityOf_eq]
  constructor
  · intro h
    cases hfound : params.reverse.findSome? fun param => quality? (strip param) with
    | none =>
      rw [hfound] at h
      obtain rfl : one = quality := h
      apply HasQuality.unstated
      intro param hparam
      exact (hnone param).mp (List.findSome?_eq_none_iff.mp hfound param (List.mem_reverse.mpr hparam))
    | some found =>
      rw [hfound] at h
      obtain rfl : found = quality := h
      obtain ⟨before, param, after, hsplit, hparam, hafter⟩ := findSome?_reverse_iff.mp hfound
      rw [quality?_strip] at hparam
      split at hparam
      · rename_i hnames
        refine .stated hsplit hnames (fun other ho => (hnone other).mp (hafter other ho)) ?_
        cases hnumber : number? param with
        | none =>
          -- What is no number counts for nothing, which is not positive.
          rw [hnumber] at hparam
          obtain rfl := Option.some.inj hparam
          exact absurd hpositive (by decide)
        | some number =>
          rw [hnumber] at hparam
          exact hparam
      · cases hparam
  · intro h
    cases h with
    | unstated h =>
      have hfound : (params.reverse.findSome? fun param => quality? (strip param)) = none := by
        apply List.findSome?_eq_none_iff.mpr
        intro param hparam
        exact (hnone param).mpr (h param (List.mem_reverse.mp hparam))
      rw [hfound]
      rfl
    | @stated before after param _ hsplit hnames hlast hnumber =>
      have hfound : (params.reverse.findSome? fun param => quality? (strip param)) = some quality := by
        refine findSome?_reverse_iff.mpr ⟨before, param, after, hsplit, ?_, ?_⟩
        · rw [quality?_strip, if_pos hnames, hnumber]
          rfl
        · intro other ho
          exact (hnone other).mpr (hlast other ho)
      rw [hfound]
      rfl

theorem ofItem?_iff {item : List Char} {position : Nat} {range : MediaRange} :
    ofItem? item position = some range ↔ ∃ first params, pieces ';' item = first :: params ∧
      range.mediaType = String.ofList (lower (strip first)) ∧ range.position = position ∧
      HasQuality params range.quality ∧ strip first ≠ [] ∧ range.quality.isPositive = true := by
  unfold ofItem?
  split
  · rename_i hnil
    simp [hnil]
  · rename_i first params hpieces
    simp only [hpieces, List.cons.injEq, Bool.or_eq_true, List.isEmpty_iff, Bool.not_eq_true',
      Option.ite_none_left_eq_some, not_or, Option.some.injEq]
    constructor
    · rintro ⟨⟨hne, hpositive⟩, rfl⟩
      rw [Bool.not_eq_false] at hpositive
      exact ⟨first, params, ⟨rfl, rfl⟩, rfl, rfl, (qualityOf_iff hpositive).mp rfl, hne, hpositive⟩
    · rintro ⟨_, _, ⟨rfl, rfl⟩, htype, hposition, hquality, hne, hpositive⟩
      have heq := (qualityOf_iff hpositive).mpr hquality
      rw [heq, Bool.not_eq_false, ← htype, ← hposition]
      exact ⟨⟨hne, hpositive⟩, rfl⟩

theorem mem_items {header : String} {range : MediaRange} :
    range ∈ items header ↔ ∃ item, (pieces ',' header.toList)[range.position]? = some item ∧
      ofItem? item range.position = some range := by
  rw [items, List.mem_filterMap]
  constructor
  · rintro ⟨⟨item, position⟩, hmem, hrange⟩
    obtain ⟨-, -, -, -, hposition, -⟩ := ofItem?_iff.mp hrange
    obtain rfl : range.position = position := hposition
    exact ⟨item, List.mk_mem_zipIdx_iff_getElem?.mp hmem, hrange⟩
  · rintro ⟨item, hplace, hrange⟩
    exact ⟨(item, range.position), List.mk_mem_zipIdx_iff_getElem?.mpr hplace, hrange⟩

theorem mem_items_iff {header : String} {range : MediaRange} :
    range ∈ items header ↔ ∃ mediaType, range.mediaType = String.ofList (lower mediaType) ∧
      IsItem header range.position mediaType range.quality := by
  rw [mem_items]
  constructor
  · rintro ⟨item, hplace, hrange⟩
    obtain ⟨first, params, hpieces, htype, -, hquality, hne, hpositive⟩ := ofItem?_iff.mp hrange
    exact ⟨strip first, htype, ⟨item, first, params, hplace, hpieces, rfl, hquality⟩, hne, hpositive⟩
  · rintro ⟨_, htype, ⟨item, first, params, hplace, hpieces, rfl, hquality⟩, hne, hpositive⟩
    exact ⟨item, hplace,
      ofItem?_iff.mpr ⟨first, params, hpieces, htype, rfl, hquality, hne, hpositive⟩⟩

theorem eq_of_position_eq {header : String} {range other : MediaRange} (h : range ∈ items header)
    (h' : other ∈ items header) (hposition : range.position = other.position) : range = other := by
  obtain ⟨item, hplace, hrange⟩ := mem_items.mp h
  obtain ⟨item', hplace', hother⟩ := mem_items.mp h'
  rw [hposition, hplace', Option.some.injEq] at hplace
  rw [hposition, ← hplace, hother, Option.some.injEq] at hrange
  exact hrange.symm

theorem pairwise_items (header : String) :
    (items header).Pairwise fun range other => range.position < other.position := by
  rw [items, List.pairwise_filterMap]
  apply (pairwise_zipIdx (pieces ',' header.toList) 0).imp
  intro item other hlt range hrange range' hrange'
  obtain ⟨-, -, -, -, hposition, -⟩ := ofItem?_iff.mp hrange
  obtain ⟨-, -, -, -, hposition', -⟩ := ofItem?_iff.mp hrange'
  rw [hposition, hposition']
  exact hlt

end MediaRange

namespace Registry

open Text

def IsWildcard (mediaType : List Char) : Prop := mediaType = ['*'] ∨ mediaType = ['*', '/', '*']

/-- What serves a media type: the first candidate for a wildcard, else the one whose content type is
the media type but for the case of letters. -/
inductive Serves (candidates : List Representation) (mediaType : List Char) :
    Representation → Prop where
  | wildcard {r : Representation} (h : IsWildcard mediaType) (first : candidates.head? = some r) :
      Serves candidates mediaType r
  | named {r : Representation} (h : ¬ IsWildcard mediaType) (mem : r ∈ candidates)
      (same : lower r.contentType.toList = lower mediaType) : Serves candidates mediaType r

theorem Serves.mem {candidates : List Representation} {mediaType : List Char} {r : Representation}
    (h : Serves candidates mediaType r) : r ∈ candidates := by
  cases h with
  | wildcard _ first => exact List.mem_of_head? first
  | named _ mem _ => exact mem

/-- An item of a header that a candidate serves. -/
def Served (candidates : List Representation) (header : String) (position : Nat)
    (quality : Binary64) (r : Representation) : Prop :=
  ∃ mediaType, MediaRange.IsItem header position mediaType quality ∧ Serves candidates mediaType r

/-- What serves the item of the highest quality, the first one of several. -/
def Best (candidates : List Representation) (header : String) (r : Representation) : Prop :=
  ∃ position quality, Served candidates header position quality r ∧
    ∀ other otherQuality s, Served candidates header other otherQuality s →
      otherQuality.rank < quality.rank ∨ otherQuality.rank = quality.rank ∧ position ≤ other

/-- The outcomes of a negotiation between candidates and a header. -/
inductive Choice (candidates : List Representation) : Value → Answer Representation → Prop where
  | noOutput {header : Value} (h : candidates = []) :
      Choice candidates header (.error (.problem noOutput))
  | default {header : Value} {r : Representation} (first : candidates.head? = some r)
      (h : ∀ s, header = .string s → strip s.toList = []) : Choice candidates header (.ok r)
  | best {s : String} {r : Representation} (asked : strip s.toList ≠ [])
      (h : Best candidates s r) : Choice candidates (.string s) (.ok r)
  | unknown {s : String} (nonempty : candidates ≠ []) (asked : strip s.toList ≠ [])
      (h : ∀ position quality r, ¬ Served candidates s position quality r) :
      Choice candidates (.string s) (.error (.problem (unknownHeader s)))

theorem isWildcard_iff {range : MediaRange} {mediaType : List Char}
    (h : range.mediaType = String.ofList (lower mediaType)) :
    range.isWildcard = true ↔ IsWildcard mediaType := by
  have hstar : ∀ d ∈ ['*'], 0 < d.toNat ∧ d.toNat ≤ 0x40 := by simp
  have hslash : ∀ d ∈ ['*', '/', '*'], 0 < d.toNat ∧ d.toNat ≤ 0x40 := by simp
  have hany : range.mediaType = "*" ↔ mediaType = ['*'] := by
    rw [h, ← String.toList_inj, String.toList_ofList, ← lower_eq_iff hstar]
    rfl
  have hall : range.mediaType = "*/*" ↔ mediaType = ['*', '/', '*'] := by
    rw [h, ← String.toList_inj, String.toList_ofList, ← lower_eq_iff hslash]
    rfl
  rw [MediaRange.isWildcard, Bool.or_eq_true, decide_eq_true_eq, decide_eq_true_eq, hany, hall,
    IsWildcard, or_comm]

section Candidates
variable {candidates : List Representation} (hd : (candidates.map Representation.key).Nodup)
include hd

theorem serving?_iff {range : MediaRange} {mediaType : List Char}
    (hrange : range.mediaType = String.ofList (lower mediaType)) {r : Representation} :
    serving? candidates range = some r ↔ Serves candidates mediaType r := by
  have hwildcard := isWildcard_iff hrange
  unfold serving?
  constructor
  · intro h
    split at h
    · rename_i hany
      exact .wildcard (hwildcard.mp hany) h
    · rename_i hnamed
      have hkey := List.find?_some h
      rw [decide_eq_true_eq, hrange, Representation.key_eq_iff] at hkey
      exact .named (mt hwildcard.mpr hnamed) (List.mem_of_find?_eq_some h) hkey
  · intro h
    cases h with
    | wildcard hany first => rw [if_pos (hwildcard.mpr hany), first]
    | named hnamed mem same =>
      rw [if_neg (mt hwildcard.mp hnamed), hrange, ← Representation.key_eq_iff.mpr same]
      exact find?_key hd mem

theorem served_iff {header : String} {position : Nat} {quality : Binary64} {r : Representation} :
    Served candidates header position quality r ↔
      ∃ range ∈ MediaRange.items header, range.position = position ∧ range.quality = quality ∧
        serving? candidates range = some r := by
  constructor
  · rintro ⟨mediaType, hitem, hserves⟩
    refine ⟨⟨String.ofList (lower mediaType), quality, position⟩, ?_, rfl, rfl, ?_⟩
    · exact MediaRange.mem_items_iff.mpr ⟨mediaType, rfl, hitem⟩
    · exact (serving?_iff hd rfl).mpr hserves
  · rintro ⟨range, hmem, rfl, rfl, hserving⟩
    obtain ⟨mediaType, htype, hitem⟩ := MediaRange.mem_items_iff.mp hmem
    exact ⟨mediaType, hitem, (serving?_iff hd htype).mp hserving⟩

/-- The first range that is served, in the order of the qualities, is the one that decides. -/
theorem best_of_findSome? {header : String} {r : Representation}
    (h : (MediaRange.ofHeader header).findSome? (serving? candidates) = some r) :
    Best candidates header r := by
  have htotal (i j : Int) : decide (j ≤ i) = true ∨ decide (i ≤ j) = true := by
    simp only [decide_eq_true_eq]
    omega
  have htrans {i j k : Int} (hij : decide (j ≤ i) = true) (hjk : decide (k ≤ j) = true) :
      decide (k ≤ i) = true := by
    simp only [decide_eq_true_eq] at hij hjk ⊢
    omega
  obtain ⟨before, range, after, hitems, hserving, hhighest, hearliest⟩ :=
    findSome?_sortBy htotal htrans h
  have hmem : range ∈ MediaRange.items header := by
    rw [hitems]
    exact List.mem_append_right _ List.mem_cons_self
  refine ⟨range.position, range.quality, (served_iff hd).mpr ⟨range, hmem, rfl, rfl, hserving⟩, ?_⟩
  intro position quality s hserved
  obtain ⟨other, hother, rfl, rfl, hs⟩ := (served_iff hd).mp hserved
  have hle : other.quality.rank ≤ range.quality.rank :=
    of_decide_eq_true (hhighest other hother (by simp [hs]))
  rcases Int.lt_or_eq_of_le hle with hlt | heq
  · exact Or.inl hlt
  · refine Or.inr ⟨heq, ?_⟩
    have hpositions := MediaRange.pairwise_items header
    rw [hitems] at hother hpositions
    rcases List.mem_append.mp hother with hfront | hrest
    · -- Nothing of this quality in front of the range is served.
      have hnone := hearliest other hfront heq
      rw [hs] at hnone
      cases hnone
    · rcases List.mem_cons.mp hrest with rfl | hbehind
      · exact Nat.le_refl _
      · exact Nat.le_of_lt
          ((List.pairwise_cons.mp (List.pairwise_append.mp hpositions).2.1).1 other hbehind)

theorem findSome?_eq_none_iff {header : String} :
    (MediaRange.ofHeader header).findSome? (serving? candidates) = none ↔
      ∀ position quality r, ¬ Served candidates header position quality r := by
  rw [List.findSome?_eq_none_iff]
  constructor
  · intro h position quality r hserved
    obtain ⟨range, hmem, -, -, hserving⟩ := (served_iff hd).mp hserved
    rw [h range ((sortBy_perm _ _ _).mem_iff.mpr hmem)] at hserving
    cases hserving
  · intro h range hmem
    have hitem := (sortBy_perm _ _ _).mem_iff.mp hmem
    cases hserving : serving? candidates range with
    | none => rfl
    | some r => exact absurd ((served_iff hd).mpr ⟨range, hitem, rfl, rfl, hserving⟩) (h _ _ r)

/-- Only one item decides. -/
theorem Best.unique {header : String} {r s : Representation} (h : Best candidates header r)
    (h' : Best candidates header s) : r = s := by
  obtain ⟨position, quality, hserved, hbest⟩ := h
  obtain ⟨position', quality', hserved', hbest'⟩ := h'
  have hposition : position = position' := by
    have hfirst := hbest _ _ _ hserved'
    have hsecond := hbest' _ _ _ hserved
    omega
  obtain ⟨range, hmem, hplace, -, hserving⟩ := (served_iff hd).mp hserved
  obtain ⟨range', hmem', hplace', -, hserving'⟩ := (served_iff hd).mp hserved'
  have hrange := MediaRange.eq_of_position_eq hmem hmem' (by omega)
  rw [← hrange, hserving, Option.some.injEq] at hserving'
  exact hserving'

theorem findSome?_eq_some_iff {header : String} {r : Representation} :
    (MediaRange.ofHeader header).findSome? (serving? candidates) = some r ↔
      Best candidates header r := by
  constructor
  · exact best_of_findSome? hd
  · intro h
    cases hfound : (MediaRange.ofHeader header).findSome? (serving? candidates) with
    | none =>
      obtain ⟨position, quality, hserved, -⟩ := h
      exact absurd hserved ((findSome?_eq_none_iff hd).mp hfound position quality r)
    | some s => rw [(best_of_findSome? hd hfound).unique hd h]

end Candidates

theorem demand?_eq_some_iff {header : Value} {s : String} :
    demand? header = some s ↔ header = .string s ∧ strip s.toList ≠ [] := by
  cases header with
  | string t =>
    simp only [demand?, List.isEmpty_iff, Option.ite_none_left_eq_some, Option.some.injEq,
      Value.string.injEq]
    constructor
    · rintro ⟨hasked, rfl⟩
      exact ⟨rfl, hasked⟩
    · rintro ⟨rfl, hasked⟩
      exact ⟨hasked, rfl⟩
  | _ => simp [demand?]

theorem demand?_eq_none_iff {header : Value} :
    demand? header = none ↔ ∀ s, header = .string s → strip s.toList = [] := by
  rw [Option.eq_none_iff_forall_ne_some]
  constructor
  · intro h s hs
    apply Decidable.byContradiction
    intro hasked
    exact h s (demand?_eq_some_iff.mpr ⟨hs, hasked⟩)
  · intro h s hs
    obtain ⟨hheader, hasked⟩ := demand?_eq_some_iff.mp hs
    exact hasked (h s hheader)

theorem negotiate_of_capable {g : Registry} {c : Capability} {first : Representation}
    {others : List Representation} (h : g.capable c = first :: others) (header : Value) :
    (g.negotiate c header).1 =
      match demand? header with
      | none => .ok first
      | some s =>
        ((MediaRange.ofHeader s).findSome? (serving? (first :: others))).elim
          (.error (.problem (unknownHeader s))) .ok := by
  rw [negotiate, h]
  dsimp only
  cases demand? header with
  | none => rfl
  | some s =>
    dsimp only
    cases (MediaRange.ofHeader s).findSome? (serving? (first :: others)) <;> rfl

/-! Choices, by what is asked. -/

theorem choice_nil_iff {header : Value} {answer : Answer Representation} :
    Choice [] header answer ↔ answer = .error (.problem noOutput) := by
  constructor
  · intro h
    cases h with
    | noOutput => rfl
    | default first => cases first
    | best asked h =>
      obtain ⟨_, _, ⟨_, _, hserves⟩, -⟩ := h
      exact absurd hserves.mem List.not_mem_nil
    | unknown nonempty => exact absurd rfl nonempty
  · rintro rfl
    exact .noOutput rfl

theorem choice_blank_iff {first : Representation} {others : List Representation} {header : Value}
    (hblank : ∀ s, header = .string s → strip s.toList = []) {answer : Answer Representation} :
    Choice (first :: others) header answer ↔ answer = .ok first := by
  constructor
  · intro h
    cases h with
    | noOutput h => cases h
    | default hfirst => rw [← Option.some.inj hfirst]
    | best asked => exact absurd (hblank _ rfl) asked
    | unknown _ asked => exact absurd (hblank _ rfl) asked
  · rintro rfl
    exact .default rfl hblank

theorem choice_asked_iff {first : Representation} {others : List Representation}
    (hd : ((first :: others).map Representation.key).Nodup) {s : String} (hasked : strip s.toList ≠ [])
    {answer : Answer Representation} :
    Choice (first :: others) (.string s) answer ↔
      answer = ((MediaRange.ofHeader s).findSome? (serving? (first :: others))).elim
        (.error (.problem (unknownHeader s))) .ok := by
  constructor
  · intro h
    cases h with
    | noOutput h => cases h
    | default _ hblank => exact absurd (hblank s rfl) hasked
    | best _ h =>
      rw [(findSome?_eq_some_iff hd).mpr h]
      rfl
    | unknown _ _ h =>
      rw [(findSome?_eq_none_iff hd).mpr h]
      rfl
  · rintro rfl
    cases hfound : (MediaRange.ofHeader s).findSome? (serving? (first :: others)) with
    | none => exact .unknown (List.cons_ne_nil _ _) hasked ((findSome?_eq_none_iff hd).mp hfound)
    | some r => exact .best hasked ((findSome?_eq_some_iff hd).mp hfound)

/-- A negotiation ends as it should: with the first candidate, with the one that serves the item of
the highest quality, or with the problem that there is no candidate or no item to serve. -/
theorem negotiate_iff {g : Registry} {c : Capability} {header : Value}
    {answer : Answer Representation} :
    (g.negotiate c header).1 = answer ↔ Choice (g.items.filter (·.supports c)) header answer := by
  have hd : ((g.items.filter (·.supports c)).map Representation.key).Nodup :=
    g.distinct.sublist (List.filter_sublist.map _)
  cases hcapable : g.items.filter (·.supports c) with
  | nil =>
    have hnone : (g.negotiate c header).1 = .error (.problem noOutput) := by
      rw [negotiate, capable, hcapable]
    rw [hnone, choice_nil_iff, eq_comm]
  | cons first others =>
    rw [hcapable] at hd
    rw [negotiate_of_capable hcapable]
    cases hdemand : demand? header with
    | none => rw [choice_blank_iff (demand?_eq_none_iff.mp hdemand), eq_comm]
    | some s =>
      obtain ⟨rfl, hasked⟩ := demand?_eq_some_iff.mp hdemand
      rw [choice_asked_iff hd hasked, eq_comm]

end Registry

end DocumentApi
