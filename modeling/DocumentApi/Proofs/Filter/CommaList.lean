import DocumentApi.ListQuery
import DocumentApi.Text.Blank.Lemmas
import Mathlib.Data.List.Forall2

/-!
Comma lists. Where the blanks of a text stand makes no difference to its items: they are the pieces
between its commas without the blanks around them, the empty ones left out. Such items are read back
from every text in which they are joined by commas, with any blanks. Main statement:
`commaList_items`.
-/

set_option autoImplicit false

namespace DocumentApi

namespace Text

/-! Pieces between commas. -/

theorem exists_splitOn (separator : Char) (cs : List Char) :
    ∃ first others, cs.splitOn separator = first :: others :=
  List.exists_cons_of_ne_nil (List.splitOn_ne_nil separator cs)

theorem splitOn_separator_cons (separator : Char) (cs : List Char) :
    (separator :: cs).splitOn separator = [] :: cs.splitOn separator := by
  rw [List.splitOn_eq_splitOnP, List.splitOnP_cons_eq_if_modifyHead, if_pos (beq_self_eq_true _)]
  rfl

theorem splitOn_cons_of_ne {separator c : Char} (h : c ≠ separator) {cs first : List Char}
    {others : List (List Char)} (hcs : cs.splitOn separator = first :: others) :
    (c :: cs).splitOn separator = (c :: first) :: others := by
  rw [List.splitOn_eq_splitOnP] at hcs ⊢
  rw [List.splitOnP_cons_eq_if_modifyHead, if_neg (by simpa using h), hcs]
  rfl

theorem not_mem_of_mem_splitOn {separator : Char} {cs piece : List Char}
    (h : piece ∈ cs.splitOn separator) : separator ∉ piece := by
  induction cs generalizing piece with
  | nil =>
    rw [List.mem_singleton.mp h]
    exact List.not_mem_nil
  | cons c rest ih =>
    by_cases hc : c = separator
    · subst hc
      rw [splitOn_separator_cons] at h
      rcases List.mem_cons.mp h with rfl | hrest
      · exact List.not_mem_nil
      · exact ih hrest
    · obtain ⟨first, others, hsplit⟩ := exists_splitOn separator rest
      rw [splitOn_cons_of_ne hc hsplit] at h
      rw [hsplit] at ih
      rcases List.mem_cons.mp h with rfl | hothers
      · have hfirst := ih List.mem_cons_self
        exact fun hmem => (List.mem_cons.mp hmem).elim (fun he => hc he.symm) hfirst
      · exact ih (List.mem_cons_of_mem first hothers)

/-- The pieces between the commas, without the blanks around them. -/
def trimmedPieces (cs : List Char) : List (List Char) := (cs.splitOn ',').map strip

theorem trimmedPieces_of_not_mem {cs : List Char} (h : ',' ∉ cs) :
    trimmedPieces cs = [strip cs] := by
  rw [trimmedPieces, List.splitOn_eq_singleton h]
  rfl

theorem trimmedPieces_append_cons (cs others : List Char) :
    trimmedPieces (cs ++ ',' :: others) = trimmedPieces cs ++ trimmedPieces others := by
  rw [trimmedPieces, List.splitOn_eq_splitOnP, List.splitOnP_append_cons cs others (by decide),
    List.map_append]
  rfl

theorem exists_last_of_mem {c : Char} {cs : List Char} (h : c ∈ cs) :
    ∃ front last, cs = front ++ c :: last ∧ c ∉ last := by
  obtain ⟨back, rest, hsplit, hback⟩ := List.eq_append_cons_of_mem (List.mem_reverse.mpr h)
  refine ⟨rest.reverse, back.reverse, ?_, fun hmem => hback (List.mem_reverse.mp hmem)⟩
  rw [← List.reverse_inj, hsplit]
  simp

section
variable {blanks : List Char} (h : AllBlank blanks)
include h

theorem AllBlank.not_mem_comma : ',' ∉ blanks := by
  intro hcomma
  have hblank := h ',' hcomma
  revert hblank
  decide

theorem AllBlank.trimmedPieces_append_left (cs : List Char) :
    trimmedPieces (blanks ++ cs) = trimmedPieces cs := by
  have hplain : ∀ ds, ',' ∉ ds → trimmedPieces (blanks ++ ds) = trimmedPieces ds := by
    intro ds hds
    have happend : ',' ∉ blanks ++ ds := fun hmem =>
      (List.mem_append.mp hmem).elim h.not_mem_comma hds
    rw [trimmedPieces_of_not_mem happend, trimmedPieces_of_not_mem hds, h.strip_append_left]
  by_cases hcomma : ',' ∈ cs
  · obtain ⟨first, rest, rfl, hfirst⟩ := List.eq_append_cons_of_mem hcomma
    rw [← List.append_assoc, trimmedPieces_append_cons, trimmedPieces_append_cons,
      hplain first hfirst]
  · exact hplain cs hcomma

theorem AllBlank.trimmedPieces_append_right (cs : List Char) :
    trimmedPieces (cs ++ blanks) = trimmedPieces cs := by
  have hplain : ∀ ds, ',' ∉ ds → trimmedPieces (ds ++ blanks) = trimmedPieces ds := by
    intro ds hds
    have happend : ',' ∉ ds ++ blanks := fun hmem =>
      (List.mem_append.mp hmem).elim hds h.not_mem_comma
    rw [trimmedPieces_of_not_mem happend, trimmedPieces_of_not_mem hds, h.strip_append_right]
  by_cases hcomma : ',' ∈ cs
  · obtain ⟨front, last, rfl, hlast⟩ := exists_last_of_mem hcomma
    rw [List.append_assoc, List.cons_append, trimmedPieces_append_cons,
      trimmedPieces_append_cons, hplain last hlast]
  · exact hplain cs hcomma

end

theorem trimmedPieces_strip (cs : List Char) : trimmedPieces (strip cs) = trimmedPieces cs := by
  obtain ⟨before, after, hbefore, hafter, hsplit⟩ := exists_around_strip cs
  calc trimmedPieces (strip cs) = trimmedPieces (before ++ strip cs) :=
        (hbefore.trimmedPieces_append_left _).symm
    _ = trimmedPieces (before ++ strip cs ++ after) :=
        (hafter.trimmedPieces_append_right _).symm
    _ = trimmedPieces cs := by rw [← hsplit]

end Text

open Text

/-- The parts are the pieces, but for the blanks that a comma takes with it. -/
theorem commaParts_eq {cs first : List Char} {others : List (List Char)}
    (h : cs.splitOn ',' = first :: others) (afterComma : Bool) :
    commaParts afterComma cs =
      (if afterComma then stripStart first else first) :: others.map stripStart := by
  induction cs generalizing first others afterComma with
  | nil =>
    cases h
    cases afterComma <;> rfl
  | cons c rest ih =>
    obtain ⟨next, more, hrest⟩ := exists_splitOn ',' rest
    by_cases hc : c = ','
    · subst hc
      rw [splitOn_separator_cons, hrest] at h
      cases h
      rw [commaParts, if_pos rfl, ih hrest]
      cases afterComma <;> rfl
    · rw [splitOn_cons_of_ne hc hrest] at h
      cases h
      rw [commaParts, if_neg hc, ih hrest, ih hrest]
      by_cases hblank : isBlank c <;> cases afterComma <;> simp [stripStart, hblank]

theorem map_strip_commaParts (afterComma : Bool) (cs : List Char) :
    (commaParts afterComma cs).map strip = trimmedPieces cs := by
  obtain ⟨first, others, hsplit⟩ := exists_splitOn ',' cs
  have hothers : (others.map stripStart).map strip = others.map strip := by
    rw [List.map_map]
    exact List.map_congr_left fun piece _ => strip_stripStart piece
  rw [commaParts_eq hsplit, trimmedPieces, hsplit, List.map_cons, List.map_cons, hothers]
  cases afterComma with
  | false => rfl
  | true => rw [if_pos rfl, strip_stripStart]

theorem commaItems_eq (s : String) :
    commaItems s = ((trimmedPieces s.toList).filter (!·.isEmpty)).map String.ofList := by
  rw [commaItems, map_strip_commaParts, trimmedPieces_strip]

/-! Items. -/

/-- Text that may be an item of a comma list. -/
structure IsCommaItem (item : String) : Prop where
  nonempty : item ≠ ""
  bare : ',' ∉ item.toList
  stripped : Text.stripped item = item

/-- The item with blanks around it. -/
def PaddedAs (item padded : String) : Prop :=
  ∃ before after : String, AllBlank before.toList ∧ AllBlank after.toList ∧
    padded = before ++ item ++ after

theorem isCommaItem_of_mem {s item : String} (h : item ∈ commaItems s) : IsCommaItem item := by
  rw [commaItems_eq] at h
  obtain ⟨cs, hcs, rfl⟩ := List.mem_map.mp h
  obtain ⟨htrimmed, hne⟩ := List.mem_filter.mp hcs
  obtain ⟨piece, hpiece, rfl⟩ := List.mem_map.mp htrimmed
  refine ⟨?_, ?_, ?_⟩
  · intro hempty
    have hnil : strip piece = [] := by simpa using congrArg String.toList hempty
    rw [hnil] at hne
    cases hne
  · rw [String.toList_ofList]
    exact fun hcomma => not_mem_of_mem_splitOn hpiece ((strip_sublist piece).subset hcomma)
  · rw [Text.stripped, String.toList_ofList, strip_strip]

theorem PaddedAs.not_mem_comma {item padded : String} (h : PaddedAs item padded)
    (hitem : IsCommaItem item) : ',' ∉ padded.toList := by
  obtain ⟨before, after, hbefore, hafter, rfl⟩ := h
  simp only [String.toList_append, List.mem_append, not_or]
  exact ⟨⟨hbefore.not_mem_comma, hitem.bare⟩, hafter.not_mem_comma⟩

theorem PaddedAs.strip_toList {item padded : String} (h : PaddedAs item padded)
    (hitem : IsCommaItem item) : strip padded.toList = item.toList := by
  obtain ⟨before, after, hbefore, hafter, rfl⟩ := h
  rw [String.toList_append, String.toList_append, hafter.strip_append_right,
    hbefore.strip_append_left]
  simpa [Text.stripped] using congrArg String.toList hitem.stripped

theorem paddedAs_self (item : String) : PaddedAs item item :=
  ⟨"", "", nofun, nofun, by simp⟩

section
variable {items padded : List String} (hitems : ∀ item ∈ items, IsCommaItem item)
  (h : List.Forall₂ PaddedAs items padded)
include hitems h

theorem forall_not_mem_comma : ∀ cs ∈ padded.map String.toList, ',' ∉ cs := by
  induction h with
  | nil => exact nofun
  | @cons item text items padded hpad _ ih =>
    intro cs hcs
    rcases List.mem_cons.mp hcs with rfl | hrest
    · exact hpad.not_mem_comma (hitems item List.mem_cons_self)
    · exact ih (fun other ho => hitems other (List.mem_cons_of_mem item ho)) cs hrest

theorem map_strip_padded : (padded.map String.toList).map strip = items.map String.toList := by
  induction h with
  | nil => rfl
  | @cons item text items padded hpad _ ih =>
    have hrest := ih fun other ho => hitems other (List.mem_cons_of_mem item ho)
    simp only [List.map_cons, hpad.strip_toList (hitems item List.mem_cons_self), hrest]

theorem commaItems_intercalate : commaItems (",".intercalate padded) = items := by
  have hkept : (items.map String.toList).filter (!·.isEmpty) = items.map String.toList := by
    apply List.filter_eq_self.mpr
    intro cs hcs
    obtain ⟨item, hitem, rfl⟩ := List.mem_map.mp hcs
    have hne := (hitems item hitem).nonempty
    simpa using hne
  have hback : (items.map String.toList).map String.ofList = items := by
    rw [List.map_map]
    exact (List.map_congr_left fun item _ => String.ofList_toList).trans (List.map_id items)
  have htext : (",".intercalate padded).toList = [','].intercalate (padded.map String.toList) :=
    String.toList_intercalate
  rw [commaItems_eq, htext]
  by_cases hnil : padded.map String.toList = []
  · -- A text without pieces has one piece, which is empty.
    have hnone : items = [] := by
      rw [← map_strip_padded hitems h, hnil] at hback
      exact hback.symm
    rw [hnil, hnone]
    rfl
  · rw [trimmedPieces, List.splitOn_intercalate ',' (forall_not_mem_comma hitems h) hnil,
      map_strip_padded hitems h, hkept, hback]

end

/-- A text makes the list of its pieces between commas without the blanks around them, the empty
ones left out; all of them are items, and written with commas they make the same list. Any items
that are joined by commas, with blanks wherever there is a comma, make the list of these items. -/
theorem commaList_items :
    (∀ s : String, ∃ items, commaList? (.string s) = some items ∧
      items = (((s.toList.splitOn ',').map strip).filter (!·.isEmpty)).map String.ofList ∧
      (∀ item ∈ items, IsCommaItem item) ∧
      commaList? (.string (",".intercalate items)) = some items) ∧
    ∀ items padded : List String, (∀ item ∈ items, IsCommaItem item) →
      List.Forall₂ PaddedAs items padded →
      commaList? (.string (",".intercalate padded)) = some items := by
  constructor
  · intro s
    have hitems : ∀ item ∈ commaItems s, IsCommaItem item := fun item h => isCommaItem_of_mem h
    have hself : List.Forall₂ PaddedAs (commaItems s) (commaItems s) :=
      List.forall₂_same.mpr fun item _ => paddedAs_self item
    exact ⟨commaItems s, rfl, commaItems_eq s, hitems,
      congrArg some (commaItems_intercalate hitems hself)⟩
  · intro items padded hitems h
    exact congrArg some (commaItems_intercalate hitems h)

/-- Blanks of several scripts, and an item with a blank inside. -/
theorem commaList_items_blanks :
    (∀ item ∈ ["first name", "-age"], IsCommaItem item) ∧
    List.Forall₂ PaddedAs ["first name", "-age"] ["first name\u3000", "\x1c\n-age "] ∧
    commaList? (.string "first name\u3000,\x1c\n-age ") = some ["first name", "-age"] ∧
    commaList? (.string ", ,\u00a0first name\t,,-age,") = some ["first name", "-age"] := by
  have hitems : ∀ item ∈ ["first name", "-age"], IsCommaItem item := by
    intro item hitem
    rcases List.mem_pair.mp hitem with rfl | rfl
    · exact ⟨by decide, by decide, by decide⟩
    · exact ⟨by decide, by decide, by decide⟩
  have hpadded : List.Forall₂ PaddedAs
      ["first name", "-age"] ["first name\u3000", "\x1c\n-age "] :=
    .cons ⟨"", "\u3000", nofun, by decide +kernel, rfl⟩
      (.cons ⟨"\x1c\n", " ", by decide +kernel, by decide +kernel, rfl⟩ .nil)
  have hjoined : ",".intercalate ["first name\u3000", "\x1c\n-age "] =
      "first name\u3000,\x1c\n-age " := by
    decide +kernel
  have hlisted := commaList_items.2 _ _ hitems hpadded
  rw [hjoined] at hlisted
  obtain ⟨items, hread, hpieces, -⟩ := commaList_items.1 ", ,\u00a0first name\t,,-age,"
  refine ⟨hitems, hpadded, hlisted, hread.trans ?_⟩
  rw [hpieces]
  decide +kernel

end DocumentApi
