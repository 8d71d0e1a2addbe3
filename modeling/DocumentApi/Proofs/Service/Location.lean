import DocumentApi.Proofs.Url.Host
import DocumentApi.Service.Write

/-!
The address that is given for a new document: the path of the collection with one more segment,
which holds the identifier and nothing else. Main statement: `locationOf_segment`.
-/

set_option autoImplicit false

namespace DocumentApi

open Text

namespace RelativeUrl

section Segment
variable {u : RelativeUrl}

/-- A segment may be added to any path but the root, where it would be taken for a host. -/
theorem writable_appendPath (hu : Writable u) (hroot : u.path ≠ "/") (segment : String) :
    Writable (u.clearParams.appendPath segment) := by
  have hclear : Spelled u.clearParams := ⟨hu.rooted, hu.path, hu.fragment⟩
  have hspelled := spelled_appendPath hclear segment
  refine ⟨hspelled.rooted, ?_, hspelled.path, hspelled.fragment⟩
  have hpath : (u.clearParams.appendPath segment).path.toList =
      u.path.toList ++ Edit.added (.appendPath segment) :=
    Edit.path_apply u.clearParams (.appendPath segment)
  rw [hpath, twoSlashes_append_iff hu.rooted (Edit.head?_added _)]
  rintro (hslashes | ⟨hslash, -⟩)
  · exact hu.single hslashes
  · apply hroot
    rw [← String.toList_inj, hslash]
    rfl

theorem ofText_clearParams_appendPath (hu : Writable u) (hroot : u.path ≠ "/")
    (segment : String) :
    ofText (u.clearParams.appendPath segment).text =
      .ok ⟨u.path ++ "/" ++ String.ofList (Percent.encodeSegment segment.toList), [], u.fragment⟩ :=
  ofText_text (writable_appendPath hu hroot segment)

/-- A segment can be read off the address that it was added to. -/
theorem clearParams_appendPath_injective (hu : Writable u) (hroot : u.path ≠ "/") :
    Function.Injective fun segment => (u.clearParams.appendPath segment).text := by
  intro segment other h
  change (u.clearParams.appendPath segment).text = (u.clearParams.appendPath other).text at h
  have hread := ofText_clearParams_appendPath hu hroot segment
  have hother := ofText_clearParams_appendPath hu hroot other
  rw [h, hother] at hread
  have hpaths := congrArg RelativeUrl.path (Except.ok.inj hread)
  have hsegments : Percent.encodeSegment other.toList = Percent.encodeSegment segment.toList := by
    simpa [← String.toList_inj] using hpaths
  have hdecoded := congrArg Percent.decode hsegments
  rw [Percent.decode_encodeSegment, Percent.decode_encodeSegment] at hdecoded
  exact String.toList_inj.mp hdecoded.symm

end Segment

end RelativeUrl

namespace Service

/-- The address of a new document in a collection with a path of its own is read with that path, one
more segment from which the identifier is decoded, no parameters and the fragment of the collection.
Two identifiers have two addresses. -/
theorem locationOf_segment {u : RelativeUrl} (hu : RelativeUrl.Writable u) (hroot : u.path ≠ "/") :
    (∀ s id, RelativeUrl.ofText s = .ok u →
      locationOf s id = .ok (u.clearParams.appendPath id).text) ∧
    (∀ id, ∃ q : String,
      RelativeUrl.ofText (u.clearParams.appendPath id).text =
        .ok ⟨u.path ++ "/" ++ q, [], u.fragment⟩ ∧
      (∀ c ∈ ['/', '?', '#'], c ∉ q.toList) ∧
      Utf8.decode? (Percent.octets q.toList) = some id.toList) ∧
    (∀ id other, (u.clearParams.appendPath id).text = (u.clearParams.appendPath other).text →
      id = other) := by
  refine ⟨?_, ?_, ?_⟩
  · intro s id hread
    rw [locationOf, hread]
    rfl
  · intro id
    refine ⟨String.ofList (Percent.encodeSegment id.toList),
      RelativeUrl.ofText_clearParams_appendPath hu hroot id, ?_, ?_⟩
    · intro c hc
      have hescaped : ∀ d ∈ ['/', '?', '#'], Percent.isAlphanumeric d.toNat = false ∧
          d ∉ ['_', '.', '-', '~', '%'] := by
        simp [Percent.isAlphanumeric]
      obtain ⟨hother, hbare⟩ := hescaped c hc
      rw [String.toList_ofList]
      exact Percent.not_mem_encodeSegment hother hbare id.toList
    · rw [String.toList_ofList, Percent.octets_encodeSegment, Utf8.decode?_encode]
  · intro id other h
    exact RelativeUrl.clearParams_appendPath_injective hu hroot h

/-- A collection at an address with blanks, a colon and an escape in its path. -/
def shelf : RelativeUrl := ⟨"/a b//c:d%2F", [("page[size]", "3")], "x#y?"⟩

theorem locationOf_segment_shelf :
    RelativeUrl.Writable shelf ∧ shelf.path ≠ "/" ∧
    locationOf "http://h/a b//c:d%2F?page[size]=3#x#y?" "../é?#%" =
      .ok "/a b//c:d%2F/..%2F%C3%A9%3F%23%25#x#y?" ∧
    ∃ q : String, RelativeUrl.ofText (shelf.clearParams.appendPath "../é?#%").text =
        .ok ⟨shelf.path ++ "/" ++ q, [], "x#y?"⟩ ∧
      Utf8.decode? (Percent.octets q.toList) = some "../é?#%".toList := by
  have hread : RelativeUrl.ofText "http://h/a b//c:d%2F?page[size]=3#x#y?" = .ok shelf := rfl
  have hsingle : ¬ ['/', '/'] <+: shelf.path.toList := by decide
  have hwritable := RelativeUrl.writable_of_ofText hread hsingle
  have hroot : shelf.path ≠ "/" := by decide
  obtain ⟨hlocation, hsegment, -⟩ := locationOf_segment hwritable hroot
  have htext : (shelf.clearParams.appendPath "../é?#%").text =
      "/a b//c:d%2F/..%2F%C3%A9%3F%23%25#x#y?" := by
    decide +kernel
  obtain ⟨q, hq, -, hdecoded⟩ := hsegment "../é?#%"
  exact ⟨hwritable, hroot, htext ▸ hlocation _ _ hread, q, hq, hdecoded⟩

end Service

end DocumentApi
