import DocumentApi.Proofs.Representation.Negotiation
import DocumentApi.Representation.Hal
import DocumentApi.Representation.Plain

/-!
What is found under a content type. A look-up goes by the bare type, the text before the first
semicolon without the blanks around it, while two registered content types are told apart by all of
their text. So a chosen representation is found again exactly if its own content type is bare. Main
statements: `find?_iff`, `function_of_negotiate`.
-/

set_option autoImplicit false

namespace DocumentApi

open Text

def bareType (contentType : String) : List Char := strip (cut ';' contentType.toList).1

theorem bareType_sublist (contentType : String) :
    (bareType contentType).Sublist contentType.toList :=
  (strip_sublist _).trans (cut_fst_sublist ';' _)

def IsBareType (contentType : String) : Prop :=
  ';' ∉ contentType.toList ∧ strip contentType.toList = contentType.toList

instance (contentType : String) : Decidable (IsBareType contentType) :=
  inferInstanceAs (Decidable (_ ∧ _))

theorem bareType_eq_iff {contentType : String} :
    bareType contentType = contentType.toList ↔ IsBareType contentType := by
  constructor
  · intro h
    -- Neither the cut nor the strip can drop anything, if both together drop nothing.
    have hcut : (cut ';' contentType.toList).1 = contentType.toList := by
      apply (cut_fst_sublist ';' contentType.toList).eq_of_length_le
      have hle := (strip_sublist (cut ';' contentType.toList).1).length_le
      rw [bareType] at h
      rw [h] at hle
      exact hle
    constructor
    · rw [← hcut]
      exact not_mem_cut_fst ';' contentType.toList
    · rw [bareType, hcut] at h
      exact h
  · rintro ⟨hplain, hstrip⟩
    rw [bareType, cut_eq_self hplain, hstrip]

namespace Registry
variable {g : Registry} {c : Capability} {r : Representation}

theorem find?_iff {contentType : String} :
    g.find? contentType = some r ↔
      r ∈ g.items ∧ lower r.contentType.toList = lower (bareType contentType) := by
  unfold find?
  constructor
  · intro h
    have hkey := List.find?_some h
    rw [decide_eq_true_eq, Representation.key_eq_iff] at hkey
    exact ⟨List.mem_of_find?_eq_some h, hkey⟩
  · rintro ⟨hr, hlower⟩
    have hkey := Representation.key_eq_iff.mpr hlower
    dsimp only
    rw [← bareType, ← hkey]
    exact find?_key g.distinct hr

/-- The case of letters makes no difference here: a part of a text that has the lower-case form of
all of it is all of it. -/
theorem find?_contentType_iff (hr : r ∈ g.items) :
    g.find? r.contentType = some r ↔ IsBareType r.contentType := by
  rw [find?_iff, ← bareType_eq_iff]
  constructor
  · rintro ⟨-, hlower⟩
    exact eq_of_lower_eq (bareType_sublist r.contentType) hlower.symm
  · intro h
    exact ⟨hr, by rw [h]⟩

/-- A function that is found both to show documents and to read bodies. -/
def Finds (g : Registry) (c : Capability) (contentType : String) (f : c.Input → Answer Value) :
    Prop :=
  g.renderer c contentType = .ok f ∧ g.parser c contentType = .ok f

def FindsNone (g : Registry) (c : Capability) (contentType : String) : Prop :=
  g.renderer c contentType = .error (.problem noRenderer) ∧
    g.parser c contentType = .error (.problem noParser)

theorem finds_of_find? {contentType : String} {f : c.Input → Answer Value}
    (h : g.find? contentType = some r) (hf : r.function? c = some f) : g.Finds c contentType f :=
  ⟨function_of_find? h hf noRenderer, function_of_find? h hf noParser⟩

theorem findsNone_of_bind {contentType : String}
    (h : (g.find? contentType).bind (·.function? c) = none) : g.FindsNone c contentType := by
  constructor
  · rw [renderer, function, h]
  · rw [parser, function, h]

/-- A chosen representation has a function for what it was chosen for. This is what its content type
leads to if that is bare. Otherwise it leads to nothing, or to the function of another one. -/
theorem function_of_negotiate {header : Value} (h : (g.negotiate c header).1 = .ok r) :
    ∃ f, r.function? c = some f ∧
      (IsBareType r.contentType → g.Finds c r.contentType f) ∧
      (¬ IsBareType r.contentType → g.FindsNone c r.contentType ∨
        ∃ other ∈ g.items, other.key ≠ r.key ∧
          lower other.contentType.toList = lower (bareType r.contentType) ∧
          ∃ used, other.function? c = some used ∧ g.Finds c r.contentType used) := by
  obtain ⟨hr, hsupports⟩ := List.mem_filter.mp (mem_capable_of_negotiate h)
  obtain ⟨f, hf⟩ := Option.isSome_iff_exists.mp hsupports
  refine ⟨f, hf, ?_, ?_⟩
  · intro hbare
    exact finds_of_find? ((find?_contentType_iff hr).mpr hbare) hf
  · intro hbare
    cases hused : (g.find? r.contentType).bind (·.function? c) with
    | none => exact Or.inl (findsNone_of_bind hused)
    | some used =>
      obtain ⟨other, hfind, hfunction⟩ := Option.bind_eq_some_iff.mp hused
      obtain ⟨hother, hlower⟩ := find?_iff.mp hfind
      refine Or.inr ⟨other, hother, ?_, hlower, used, hfunction, finds_of_find? hfind hfunction⟩
      intro hkey
      have hsame : other = r := Option.some.inj
        ((find?_key g.distinct hother).symm.trans (hkey ▸ find?_key g.distinct hr))
      rw [hsame] at hfind
      exact hbare ((find?_contentType_iff hr).mp hfind)

/-- A registry whose default states how its text is encoded. -/
def charset : Representation :=
  { Representation.plain with contentType := "application/json; charset=utf-8" }

def withCharset : Registry := ⟨[charset, Representation.hal], by decide +kernel⟩

def halHeader : String := "text/html, Application/HAL+JSON;charset=utf-8"

theorem negotiate_halHeader :
    (withCharset.negotiate .renderPage (.string halHeader)).1 = .ok Representation.hal := by
  have hcapable : withCharset.capable .renderPage = charset :: [Representation.hal] := rfl
  have hasked : demand? (.string halHeader) = some halHeader :=
    demand?_eq_some_iff.mpr ⟨rfl, by decide +kernel⟩
  have hranges : MediaRange.ofHeader halHeader =
      [⟨"text/html", MediaRange.one, 0⟩, ⟨"application/hal+json", MediaRange.one, 1⟩] := by
    decide +kernel
  rw [negotiate_of_capable hcapable, hasked]
  dsimp only
  rw [hranges]
  rfl

theorem function_of_negotiate_halHeader :
    (withCharset.negotiate .renderPage (.string halHeader)).1 = .ok Representation.hal ∧
      IsBareType Representation.hal.contentType ∧
      withCharset.Finds .renderPage Representation.hal.contentType
        Representation.Hal.renderPage := by
  have hbare : IsBareType Representation.hal.contentType := by decide +kernel
  obtain ⟨f, hf, hfinds, -⟩ := function_of_negotiate negotiate_halHeader
  obtain rfl : Representation.Hal.renderPage = f := Option.some.inj hf
  exact ⟨negotiate_halHeader, hbare, hfinds hbare⟩

/-- The default is chosen, and nothing is found under its content type. -/
theorem chosen_not_found :
    (withCharset.negotiate .renderOne .null).1 = .ok charset ∧
      (charset.function? .renderOne).isSome ∧
      withCharset.FindsNone .renderOne charset.contentType := by
  refine ⟨rfl, rfl, ?_⟩
  apply findsNone_of_bind
  rfl

end Registry

end DocumentApi
