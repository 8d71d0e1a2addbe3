import DocumentApi.Proofs.Url.RoundTrip

/-!
Addresses that are formed from one that was read: with fewer parameters, or with a segment after its
path. Their texts can be read again wherever the path of the first can be read by itself; a path
that starts with two slashes is read for an authority then, which may be ill-formed.
-/

set_option autoImplicit false

namespace DocumentApi

namespace Text.Percent

theorem mem_encodeSegment {c : Char} {cs : List Char} (h : c ∈ encodeSegment cs) :
    isAlphanumeric c.toNat = true ∨ c ∈ ['_', '.', '-', '~', '%'] := by
  obtain ⟨octet, -, hc⟩ := List.mem_flatMap.mp h
  rw [encodeWith] at hc
  split at hc
  · rename_i hbare
    obtain rfl := List.mem_singleton.mp hc
    rw [toNat_char_of_octet]
    exact hbare.imp_right (List.mem_append_left ['%'])
  · simp only [escape, List.mem_cons, List.not_mem_nil, or_false] at hc
    rcases hc with rfl | rfl | rfl
    · exact Or.inr (by decide)
    · exact Or.inl (isAlphanumeric_upperHexDigit _)
    · exact Or.inl (isAlphanumeric_upperHexDigit _)

theorem not_mem_encodeSegment {c : Char} (h : isAlphanumeric c.toNat = false)
    (hc : c ∉ ['_', '.', '-', '~', '%']) (cs : List Char) : c ∉ encodeSegment cs := by
  intro hmem
  rcases mem_encodeSegment hmem with halpha | hbare
  · simp [h] at halpha
  · exact hc hbare

end Text.Percent

namespace Url

open Text

theorem takeWhile_authority {tail : List Char} (h : tail.head?.all endsAuthority) :
    tail.takeWhile (!endsAuthority ·) = [] := by
  cases tail with
  | nil => rfl
  | cons c cs =>
    have hc : endsAuthority c = true := by simpa using h
    simp [hc]

theorem fst_cutAuthority_append {path tail : List Char} (hroot : path.head? = some '/')
    (htail : tail.head?.all endsAuthority) (hslash : path = ['/'] → tail.head? ≠ some '/') :
    (cutAuthority (path ++ tail)).1 = (cutAuthority path).1 := by
  obtain ⟨rest, rfl⟩ := List.head?_eq_some_iff.mp hroot
  have hstop := takeWhile_authority htail
  cases rest with
  | nil =>
    cases tail with
    | nil => rfl
    | cons c cs =>
      have hc : c ≠ '/' := fun he => hslash rfl (by rw [he]; rfl)
      simp [cutAuthority, hc]
  | cons c cs =>
    by_cases hc : c = '/'
    · subst hc
      simp only [cutAuthority, List.cons_append, List.takeWhile_append, hstop, List.append_nil]
      split
      · rename_i hall
        exact (List.takeWhile_prefix _).eq_of_length hall |>.symm
      · rfl
    · simp [cutAuthority, hc]

theorem endsAuthority_of_mem_encodeSegment {c : Char} {cs : List Char}
    (h : c ∈ Percent.encodeSegment cs) : endsAuthority c = false := by
  have hne {d : Char} (hd : Percent.isAlphanumeric d.toNat = false)
      (hbare : d ∉ ['_', '.', '-', '~', '%']) : c ≠ d := fun he =>
    Percent.not_mem_encodeSegment hd hbare cs (he ▸ h)
  have hslash : c ≠ '/' := hne (by decide) (by decide)
  have hquestion : c ≠ '?' := hne (by decide) (by decide)
  have hhash : c ≠ '#' := hne (by decide) (by decide)
  simp [endsAuthority, hslash, hquestion, hhash]

theorem mem_of_mem_fst_cutAuthority {c : Char} {cs : List Char} (h : c ∈ (cutAuthority cs).1) :
    c ∈ cs := by
  unfold cutAuthority at h
  split at h
  · exact List.mem_cons_of_mem _ (List.mem_cons_of_mem _ ((List.takeWhile_sublist _).subset h))
  · cases h

/-- Characters of ASCII, none of them a bracket, are an authority that is well-formed. -/
theorem checkAuthority_of_ascii {cs : List Char} (hascii : ∀ c ∈ cs, c.toNat < 0x80)
    (hopen : '[' ∉ cs) (hclose : ']' ∉ cs) : checkAuthority cs = .ok () := by
  have hplain : cs.any (fun c => c.toNat ∈ confusable) = false := by
    rw [List.any_eq_false]
    intro c hc
    have hlarge : ∀ n ∈ confusable, 0x80 ≤ n := by decide
    have hsmall := hascii c hc
    simpa using fun hm => absurd (hlarge _ hm) (by omega)
  rw [checkAuthority, checkBrackets, checkCharacters, hplain, if_neg (by simp [hopen]),
    if_neg (by simp [hopen, hclose]), if_neg Bool.false_ne_true]
  rfl

theorem checkAuthority_encodeSegment (cs : List Char) :
    checkAuthority (Percent.encodeSegment cs) = .ok () := by
  refine checkAuthority_of_ascii (fun c hc => ?_)
    (Percent.not_mem_encodeSegment (by decide) (by decide) cs)
    (Percent.not_mem_encodeSegment (by decide) (by decide) cs)
  rcases Percent.mem_encodeSegment hc with halpha | hbare
  · simp only [Percent.isAlphanumeric, Bool.or_eq_true, Bool.and_eq_true,
      decide_eq_true_eq] at halpha
    omega
  · have hall : ∀ d ∈ ['_', '.', '-', '~', '%'], d.toNat < 0x80 := by simp
    exact hall c hbare

end Url

namespace RelativeUrl

open Text Url

theorem exists_ofText_iff {u : RelativeUrl} (h : Spelled u) :
    (∃ v, ofText u.text = .ok v) ↔ checkAuthority (cutAuthority u.text.toList).1 = .ok () := by
  rw [ofText, partsOfText_text h]
  cases checkAuthority (cutAuthority u.text.toList).1 with
  | error failure =>
    constructor
    · rintro ⟨v, hv⟩
      cases hv
    · intro hok
      cases hok
  | ok _ => exact ⟨fun _ => rfl, fun _ => ⟨_, rfl⟩⟩

/-- An address that can be read, and its path too by itself. -/
def Sound (s : String) : Prop := ∃ u v, ofText s = .ok u ∧ ofText u.path = .ok v

section Formed
variable {s : String} {u v : RelativeUrl}

theorem exists_ofText_path_iff (hu : ofText s = .ok u) :
    (∃ v, ofText u.path = .ok v) ↔ checkAuthority (cutAuthority u.path.toList).1 = .ok () := by
  have hspelled := spelled_of_ofText hu
  have hpath : Spelled ⟨u.path, [], ""⟩ := ⟨hspelled.rooted, hspelled.path, by simp⟩
  have htext : text ⟨u.path, [], ""⟩ = u.path := by simp [text, queryText, fragmentText]
  rw [← htext]
  exact exists_ofText_iff hpath

/-- An address that can be read is sound if its path is of ASCII and without brackets. -/
theorem sound_of_ascii (hu : ofText s = .ok u) (hascii : ∀ c ∈ u.path.toList, c.toNat < 0x80)
    (hopen : '[' ∉ u.path.toList) (hclose : ']' ∉ u.path.toList) : Sound s := by
  have hcheck : checkAuthority (cutAuthority u.path.toList).1 = .ok () :=
    checkAuthority_of_ascii (fun c hc => hascii c (mem_of_mem_fst_cutAuthority hc))
      (fun hm => hopen (mem_of_mem_fst_cutAuthority hm))
      (fun hm => hclose (mem_of_mem_fst_cutAuthority hm))
  obtain ⟨v, hv⟩ := (exists_ofText_path_iff hu).mpr hcheck
  exact ⟨u, v, hu, hv⟩

theorem head?_tail_all (u : RelativeUrl) : u.tail.head?.all endsAuthority := by
  simp only [tail, queryText, fragmentText]
  split <;> split <;> simp [endsAuthority]

theorem ofText_keepParams (hu : ofText s = .ok u) (hv : ofText u.path = .ok v)
    (names : List String) : ∃ w, ofText (u.keepParams names).text = .ok w := by
  have hspelled := spelled_of_ofText hu
  have hkept : Spelled (u.keepParams names) := ⟨hspelled.rooted, hspelled.path, hspelled.fragment⟩
  have hpath := (exists_ofText_path_iff hu).mp ⟨v, hv⟩
  refine (exists_ofText_iff hkept).mpr ?_
  rw [toList_text, fst_cutAuthority_append hkept.rooted (head?_tail_all _) fun _ => head?_tail _]
  exact hpath

theorem spelled_appendPath (hu : Spelled u) (segment : String) : Spelled (u.appendPath segment) := by
  refine ⟨?_, fun c hc => ?_, hu.fragment⟩
  · obtain ⟨rest, hpath⟩ := List.head?_eq_some_iff.mp hu.rooted
    simp [appendPath, hpath]
  · simp only [appendPath, String.toList_append, String.toList_ofList, List.mem_append] at hc
    rcases hc with (hc | hc) | hc
    · exact hu.path c hc
    · obtain rfl : c = '/' := by simpa using hc
      decide
    · rcases Percent.mem_encodeSegment hc with halpha | hbare
      · intro hbad
        have hnone : ∀ d ∈ ['?', '#', '\t', '\n', '\r'], Percent.isAlphanumeric d.toNat = false := by
          simp [Percent.isAlphanumeric]
        simp [hnone c hbad] at halpha
      · have hnone : ∀ d ∈ ['_', '.', '-', '~', '%'], d ∉ ['?', '#', '\t', '\n', '\r'] := by simp
        exact hnone c hbare

theorem ofText_appendPath (hu : ofText s = .ok u) (hv : ofText u.path = .ok v) (segment : String) :
    ∃ w, ofText (u.clearParams.appendPath segment).text = .ok w := by
  have hspelled := spelled_of_ofText hu
  have hclear : Spelled u.clearParams := ⟨hspelled.rooted, hspelled.path, hspelled.fragment⟩
  refine (exists_ofText_iff (spelled_appendPath hclear segment)).mpr ?_
  generalize htail : (u.clearParams.appendPath segment).tail = tail
  have hstop := head?_tail_all (u.clearParams.appendPath segment)
  rw [htail] at hstop
  have htext : (u.clearParams.appendPath segment).text.toList =
      u.path.toList ++ '/' :: (Percent.encodeSegment segment.toList ++ tail) := by
    rw [toList_text, htail]
    simp [appendPath, clearParams]
  rw [htext]
  by_cases hroot : u.path.toList = ['/']
  · -- The segment itself is read for an authority.
    have hcut : (cutAuthority (u.path.toList ++ '/' ::
        (Percent.encodeSegment segment.toList ++ tail))).1 = Percent.encodeSegment segment.toList := by
      have hfree : ∀ c ∈ Percent.encodeSegment segment.toList, (!endsAuthority c) = true :=
        fun c hc => by simp [endsAuthority_of_mem_encodeSegment hc]
      rw [hroot]
      simp only [List.cons_append, List.nil_append, cutAuthority]
      rw [List.takeWhile_append_of_pos hfree, takeWhile_authority hstop, List.append_nil]
    rw [hcut]
    exact checkAuthority_encodeSegment _
  · rw [fst_cutAuthority_append hspelled.rooted (by simp [endsAuthority]) fun he => absurd he hroot]
    exact (exists_ofText_path_iff hu).mp ⟨v, hv⟩

end Formed

end RelativeUrl

end DocumentApi
