import DocumentApi.Proofs.Url.Canonical

/-!
Setting a parameter of an address. The name then stands once, where it stood first, or at the end if
it did not; a value that is set twice is set by the last of the two; and of two names either may be
set first, as far as the text of the address goes. Main statement: `setsOnce_setParam`.
-/

set_option autoImplicit false

namespace DocumentApi.RelativeUrl

open Url

/-- The parameters after a value was set for a name. The place of a name that there is none of is
the one after the last. -/
structure SetsOnce (name value : String) (params changed : List Param) : Prop where
  once : valuesOf changed name = [(name, value)]
  place : changed[params.findIdx fun p => p.1 = name]? = some (name, value)
  others : (changed.filter fun p => p.1 ≠ name) = params.filter fun p => p.1 ≠ name

theorem getElem?_setFirst (name value : String) (params : List Param) :
    (setFirst name value params)[params.findIdx fun p => p.1 = name]? = some (name, value) := by
  induction params with
  | nil => rfl
  | cons p rest ih =>
    by_cases hp : p.1 = name
    · simp [setFirst, hp, List.findIdx_cons]
    · simpa [setFirst, hp, List.findIdx_cons] using ih

theorem filter_ne_setFirst (name value : String) (params : List Param) :
    ((setFirst name value params).filter fun p => p.1 ≠ name) =
      params.filter fun p => p.1 ≠ name := by
  induction params with
  | nil => simp [setFirst]
  | cons p rest ih =>
    by_cases hp : p.1 = name
    · simp [setFirst, hp]
    · simpa [setFirst, hp] using ih

theorem setsOnce_setFirst (name value : String) (params : List Param) :
    SetsOnce name value params (setFirst name value params) :=
  ⟨valuesOf_setFirst_self name value params, getElem?_setFirst name value params,
    filter_ne_setFirst name value params⟩

theorem setFirst_setFirst (name old value : String) (params : List Param) :
    setFirst name value (setFirst name old params) = setFirst name value params := by
  induction params with
  | nil => simp [setFirst]
  | cons p rest ih =>
    by_cases hp : p.1 = name
    · simp [setFirst, hp]
    · simp [setFirst, hp, ih]

theorem valuesOf_setFirst_comm {name other : String} (h : name ≠ other) (value given : String)
    (params : List Param) (asked : String) :
    valuesOf (setFirst other given (setFirst name value params)) asked =
      valuesOf (setFirst name value (setFirst other given params)) asked := by
  by_cases hname : asked = name
  · subst hname
    rw [valuesOf_setFirst_of_ne h, valuesOf_setFirst_self, valuesOf_setFirst_self]
  · by_cases hother : asked = other
    · subst hother
      rw [valuesOf_setFirst_self, valuesOf_setFirst_of_ne hname, valuesOf_setFirst_self]
    · rw [valuesOf_setFirst_of_ne hother, valuesOf_setFirst_of_ne hname,
        valuesOf_setFirst_of_ne hname, valuesOf_setFirst_of_ne hother]

/-- The parameters themselves may differ in their order, but the text has them sorted. -/
theorem text_setParam_comm (u : RelativeUrl) {name other : String} (h : name ≠ other)
    (value given : String) :
    ((u.setParam name value).setParam other given).text =
      ((u.setParam other given).setParam name value).text := by
  have hvalues : ∀ asked, values (setFirst other given (setFirst name value u.params)) asked =
      values (setFirst name value (setFirst other given u.params)) asked := by
    intro asked
    exact congrArg (List.map Prod.snd) (valuesOf_setFirst_comm h value given u.params asked)
  exact text_congr rfl rfl
    ((sortedByName_sortParams _).unique (sortedByName_sortParams _) hvalues)

/-- A parameter that is set stands once, in the place of the first of its name or else at the end,
and all else is as it was; setting it again replaces the value; and the text does not show which of
two parameters was set first. -/
theorem setsOnce_setParam (u : RelativeUrl) (name other value given : String) :
    SetsOnce name value u.params (u.setParam name value).params ∧
    (u.setParam name value).path = u.path ∧ (u.setParam name value).fragment = u.fragment ∧
    (u.setParam name value).setParam name given = u.setParam name given ∧
    (name ≠ other → ((u.setParam name value).setParam other given).text =
      ((u.setParam other given).setParam name value).text) := by
  refine ⟨setsOnce_setFirst name value u.params, rfl, rfl, ?_, ?_⟩
  · simp only [setParam, setFirst_setFirst]
  · intro h
    exact text_setParam_comm u h value given

def repeatedNames : RelativeUrl :=
  ⟨"/cats", [("b", "1"), ("a", "1"), ("c", "2"), ("a", "3"), ("b", "4")], "top"⟩

/-- Two names that do not occur, so that the one set first is written first. -/
theorem setsOnce_setParam_newNames :
    "z" ≠ "y" ∧
    SetsOnce "a" "9" repeatedNames.params [("b", "1"), ("a", "9"), ("c", "2"), ("b", "4")] ∧
    ((repeatedNames.setParam "z" "8").setParam "y" "7").params ≠
      ((repeatedNames.setParam "y" "7").setParam "z" "8").params ∧
    ((repeatedNames.setParam "z" "8").setParam "y" "7").text =
      ((repeatedNames.setParam "y" "7").setParam "z" "8").text := by
  have hne : "z" ≠ "y" := by decide
  obtain ⟨hset, -⟩ := setsOnce_setParam repeatedNames "a" "b" "9" "8"
  obtain ⟨-, -, -, -, hcomm⟩ := setsOnce_setParam repeatedNames "z" "y" "8" "7"
  exact ⟨hne, hset, by decide, hcomm hne⟩

end DocumentApi.RelativeUrl
