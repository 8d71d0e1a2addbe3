import DocumentApi.Proofs.Url.Extension

/-!
Addresses that name no host. An address that was read may be changed any number of times: its
parameters in every way, its path only by segments at its end. Its text then names no host unless
its path starts with two slashes, which happens where the path that was read does, or where it is
the root and a segment was added. Main statement: `hostRelative_edited_iff`.
-/

set_option autoImplicit false

namespace DocumentApi

namespace Url

/-- An address that names neither a scheme nor a host, and is read with the given path. -/
structure HostRelative (s path : String) : Prop where
  scheme : dropScheme (clean s.toList) = clean s.toList
  host : (cutAuthority (dropScheme (clean s.toList))).1 = []
  read : ∃ parts, Parts.ofText s.toList = .ok parts ∧ parts.path = path.toList

theorem snd_cutAuthority_of_noHost {cs : List Char}
    (h : (cutAuthority ('/' :: '/' :: cs)).1 = []) : (cutAuthority ('/' :: '/' :: cs)).2 = cs := by
  have hsplit := List.takeWhile_append_dropWhile (p := (!endsAuthority ·)) (l := cs)
  have hnone : cs.takeWhile (!endsAuthority ·) = [] := h
  rw [hnone, List.nil_append] at hsplit
  exact hsplit

end Url

namespace RelativeUrl

open Text Url

inductive Edit where
  | setParam (name value : String)
  | removeParam (name : String)
  | keepParams (names : List String)
  | clearParams
  | appendPath (segment : String)
deriving DecidableEq, Repr

namespace Edit

def apply (u : RelativeUrl) : Edit → RelativeUrl
  | setParam name value => u.setParam name value
  | removeParam name => u.removeParam name
  | keepParams names => u.keepParams names
  | clearParams => u.clearParams
  | appendPath segment => u.appendPath segment

/-- What a change adds to the path. -/
def added : Edit → List Char
  | appendPath segment => '/' :: Percent.encodeSegment segment.toList
  | _ => []

theorem path_apply (u : RelativeUrl) (e : Edit) :
    (e.apply u).path.toList = u.path.toList ++ e.added := by
  cases e with
  | appendPath segment => simp [apply, RelativeUrl.appendPath, added]
  | _ => simp [apply, added, RelativeUrl.setParam, RelativeUrl.removeParam, RelativeUrl.keepParams,
      RelativeUrl.clearParams]

theorem spelled_apply {u : RelativeUrl} (h : Spelled u) (e : Edit) : Spelled (e.apply u) := by
  cases e with
  | appendPath segment => exact spelled_appendPath h segment
  | _ => exact ⟨h.rooted, h.path, h.fragment⟩

theorem head?_added (e : Edit) : e.added = [] ∨ e.added.head? = some '/' := by
  cases e with
  | appendPath segment => exact Or.inr rfl
  | _ => exact Or.inl rfl

theorem added_eq_nil_iff {e : Edit} : e.added = [] ↔ ∀ segment, e ≠ appendPath segment := by
  cases e with
  | appendPath segment => simp [added]
  | _ => simp [added]

end Edit

def edited (u : RelativeUrl) (edits : List Edit) : RelativeUrl := edits.foldl Edit.apply u

theorem spelled_edited {u : RelativeUrl} (h : Spelled u) (edits : List Edit) :
    Spelled (u.edited edits) := by
  induction edits generalizing u with
  | nil => exact h
  | cons e rest ih => exact ih (Edit.spelled_apply h e)

theorem path_edited (u : RelativeUrl) (edits : List Edit) :
    (u.edited edits).path.toList = u.path.toList ++ edits.flatMap Edit.added := by
  induction edits generalizing u with
  | nil => simp [edited]
  | cons e rest ih =>
    have hrest : u.edited (e :: rest) = (e.apply u).edited rest := rfl
    rw [hrest, ih, Edit.path_apply, List.flatMap_cons, List.append_assoc]

theorem head?_flatMap_added (edits : List Edit) :
    edits.flatMap Edit.added = [] ∨ (edits.flatMap Edit.added).head? = some '/' := by
  induction edits with
  | nil => exact Or.inl rfl
  | cons e rest ih =>
    rw [List.flatMap_cons]
    rcases Edit.head?_added e with he | he
    · rw [he, List.nil_append]
      exact ih
    · obtain ⟨cs, hcs⟩ := List.head?_eq_some_iff.mp he
      exact Or.inr (by rw [hcs]; rfl)

theorem flatMap_added_eq_nil_iff {edits : List Edit} :
    edits.flatMap Edit.added = [] ↔ ∀ segment, Edit.appendPath segment ∉ edits := by
  rw [List.flatMap_eq_nil_iff]
  constructor
  · intro h segment hmem
    exact Edit.added_eq_nil_iff.mp (h _ hmem) segment rfl
  · intro h e he
    apply Edit.added_eq_nil_iff.mpr
    rintro segment rfl
    exact h segment he

/-- A second slash comes in front of the path only where it was there, or after the root. -/
theorem twoSlashes_append_iff {path added : List Char} (hroot : path.head? = some '/')
    (hadded : added = [] ∨ added.head? = some '/') :
    ['/', '/'] <+: path ++ added ↔ ['/', '/'] <+: path ∨ path = ['/'] ∧ added ≠ [] := by
  obtain ⟨rest, rfl⟩ := List.head?_eq_some_iff.mp hroot
  cases rest with
  | nil =>
    rcases hadded with rfl | hslash
    · simp
    · obtain ⟨cs, rfl⟩ := List.head?_eq_some_iff.mp hslash
      simp
  | cons c cs => simp [List.cons_prefix_cons]

theorem hostRelative_of_writable {u : RelativeUrl} (h : Writable u) :
    HostRelative u.text u.path := by
  have hclean := clean_text h.spelled
  have hscheme := dropScheme_of_rooted (head?_text h.spelled)
  refine ⟨?_, ?_, ?_⟩
  · rw [hclean, hscheme]
  · rw [hclean, hscheme, cutAuthority_text h]
  · refine ⟨⟨u.path.toList, writeQuery u.params, u.fragment.toList⟩, ?_, rfl⟩
    rw [partsOfText_text h.spelled, cutAuthority_text h]
    dsimp only
    rw [ofTail_text h.path]
    rfl

/-- What is written after a path does not change how far the path is read. -/
theorem path_ofTail_append_tail (u : RelativeUrl) {path : List Char}
    (h : ∀ c ∈ path, c ∉ ['?', '#', '\t', '\n', '\r']) :
    (Parts.ofTail (path ++ u.tail)).path = path := by
  have hread := ofTail_text (u := { u with path := String.ofList path })
    (by rwa [String.toList_ofList])
  rw [toList_text, String.toList_ofList] at hread
  have htail : Parts.ofTail (path ++ u.tail) = ⟨path, _, _⟩ := hread
  rw [htail]

/-- Two slashes in front of a path are never read as a part of it, even with no host after them. -/
theorem not_hostRelative_of_twoSlashes {u : RelativeUrl} (h : Spelled u)
    (hslashes : ['/', '/'] <+: u.path.toList) : ¬ HostRelative u.text u.path := by
  intro hrelative
  obtain ⟨rest, happend⟩ := hslashes
  have hpath : u.path.toList = '/' :: '/' :: rest := happend.symm
  have htext : u.text.toList = '/' :: '/' :: (rest ++ u.tail) := by
    rw [toList_text, hpath, List.cons_append, List.cons_append]
  have hhost := hrelative.host
  rw [clean_text h, dropScheme_of_rooted (head?_text h), htext] at hhost
  obtain ⟨parts, hread, hparts⟩ := hrelative.read
  rw [partsOfText_text h, htext, snd_cutAuthority_of_noHost hhost] at hread
  obtain ⟨_, -, hok⟩ := Answer.bind_eq_ok.mp hread
  have hrest : parts.path = rest := by
    rw [← Except.ok.inj hok]
    apply path_ofTail_append_tail u
    intro c hc
    apply h.path c
    rw [hpath]
    exact List.mem_cons_of_mem _ (List.mem_cons_of_mem _ hc)
  have hlength := congrArg List.length (hrest.symm.trans (hparts.trans hpath))
  simp only [List.length_cons] at hlength
  omega

theorem hostRelative_text_iff {u : RelativeUrl} (h : Spelled u) :
    HostRelative u.text u.path ↔ ¬ ['/', '/'] <+: u.path.toList := by
  constructor
  · intro hrelative hslashes
    exact not_hostRelative_of_twoSlashes h hslashes hrelative
  · intro hsingle
    exact hostRelative_of_writable ⟨h.rooted, hsingle, h.path, h.fragment⟩

/-- However an address that was read is changed, its text names no host and is read with its path,
unless the path that was read starts with two slashes, or is the root and a segment was added. -/
theorem hostRelative_edited_iff {s : String} {u : RelativeUrl} (hu : ofText s = .ok u)
    (edits : List Edit) :
    HostRelative (u.edited edits).text (u.edited edits).path ↔
      ¬ ['/', '/'] <+: u.path.toList ∧
        (u.path = "/" → ∀ segment, Edit.appendPath segment ∉ edits) := by
  have hspelled := spelled_of_ofText hu
  have hroot : u.path.toList = ['/'] ↔ u.path = "/" := by
    rw [← String.toList_inj]
    rfl
  rw [hostRelative_text_iff (spelled_edited hspelled edits), path_edited,
    twoSlashes_append_iff hspelled.rooted (head?_flatMap_added edits), hroot, not_or, not_and,
    Decidable.not_not, flatMap_added_eq_nil_iff]

def nested : RelativeUrl := ⟨"/a//b", [("x", "1"), ("x", "2")], "z"⟩

def nestedEdits : List Edit := [.setParam "x" "//h", .appendPath "/c", .removeParam "y"]

theorem hostRelative_edited_nested :
    ofText "https://u@[::1]:80/a//b?x=1&x=2#z" = .ok nested ∧
    (nested.edited nestedEdits).text = "/a//b/%2Fc?x=%2F%2Fh#z" ∧
    (HostRelative (nested.edited nestedEdits).text (nested.edited nestedEdits).path ↔
      ¬ ['/', '/'] <+: nested.path.toList ∧
        (nested.path = "/" → ∀ segment, Edit.appendPath segment ∉ nestedEdits)) := by
  have hread : ofText "https://u@[::1]:80/a//b?x=1&x=2#z" = .ok nested := rfl
  exact ⟨hread, by decide +kernel, hostRelative_edited_iff hread nestedEdits⟩

/-- A segment after the root is read as a host, and nothing is left of the path. -/
theorem host_of_segment_after_root :
    ∃ u, ofText "/" = .ok u ∧ (u.edited [.appendPath "tom"]).text = "//tom" ∧
      (u.edited [.appendPath "tom"]).path = "//tom" ∧
      (cutAuthority "//tom".toList).1 = "tom".toList ∧ ¬ HostRelative "//tom" "//tom" := by
  refine ⟨⟨"/", [], ""⟩, rfl, by decide +kernel, by decide +kernel, by decide +kernel, ?_⟩
  intro h
  exact absurd h.host (by decide +kernel)

end RelativeUrl

end DocumentApi
