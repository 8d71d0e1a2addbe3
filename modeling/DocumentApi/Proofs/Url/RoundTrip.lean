import DocumentApi.Text.Percent.Lemmas
import DocumentApi.Url.Relative

/-!
Addresses are read back as what they were written for, with their parameters in the order of the
names. The path must stand on its own: after a second slash at its start it would be taken for an
authority. Main statements: `partsOfText_text` for any address that can be told apart into its parts,
`ofText_text`, and `spelled_of_ofText` and `writable_of_ofText` for addresses that were read.
-/

set_option autoImplicit false

namespace DocumentApi

namespace Text.Percent

/-- The characters that the text of a form is made of, apart from those between its parts. -/
def IsFormChar (c : Char) : Prop :=
  isAlphanumeric c.toNat = true ∨ c ∈ ['_', '.', '-', '*', '+', '%']

instance (c : Char) : Decidable (IsFormChar c) := inferInstanceAs (Decidable (_ ∨ _))

theorem isAlphanumeric_upperHexDigit (n : Nat) :
    isAlphanumeric (upperHexDigit n).toNat = true := by
  have h : ∀ k < 16, isAlphanumeric (upperHexDigit k).toNat = true := by decide
  have hmod : upperHexDigit n = upperHexDigit (n % 16) := by simp [upperHexDigit]
  rw [hmod]
  exact h (n % 16) (Nat.mod_lt n (by decide))

theorem isFormChar_of_mem_encodeForm {c : Char} {cs : List Char} (h : c ∈ encodeForm cs) :
    IsFormChar c := by
  obtain ⟨octet, -, hc⟩ := List.mem_flatMap.mp h
  rw [encodeFormOctet] at hc
  split at hc
  · exact Or.inr (by simp_all)
  · rw [encodeWith] at hc
    split at hc
    · rename_i hbare
      obtain rfl := List.mem_singleton.mp hc
      rw [IsFormChar, toNat_char_of_octet]
      exact hbare.imp_right (List.mem_append_left ['+', '%'])
    · rcases List.mem_cons.mp hc with rfl | hdigit
      · exact Or.inr (by simp)
      · rcases List.mem_cons.mp hdigit with rfl | hlast
        · exact Or.inl (isAlphanumeric_upperHexDigit _)
        · obtain rfl := List.mem_singleton.mp hlast
          exact Or.inl (isAlphanumeric_upperHexDigit _)

theorem not_mem_encodeForm {c : Char} (h : ¬ IsFormChar c) (cs : List Char) : c ∉ encodeForm cs :=
  fun hc => h (isFormChar_of_mem_encodeForm hc)

end Text.Percent

namespace Url

open Text

theorem decodeText_encodeText (s : String) : decodeText (encodeText s) = s := by
  rw [decodeText, encodeText, Percent.decodeForm_encodeForm, String.ofList_toList]

theorem readParam_writeParam (p : Param) : readParam (writeParam p) = p := by
  have hcut : cut '=' (writeParam p) = (encodeText p.1, some (encodeText p.2)) :=
    cut_append_cons (Percent.not_mem_encodeForm (by decide) _) _
  rw [readParam, hcut]
  simp [decodeText_encodeText]

theorem not_mem_writeParam {c : Char} (h : ¬ Percent.IsFormChar c) (heq : c ≠ '=') (p : Param) :
    c ∉ writeParam p := by
  simp [writeParam, encodeText, Percent.not_mem_encodeForm h, heq]

theorem not_mem_writeQuery {c : Char} (h : ¬ Percent.IsFormChar c) (heq : c ≠ '=') (hamp : c ≠ '&')
    (params : List Param) : c ∉ writeQuery params := by
  rw [writeQuery]
  induction sortParams params with
  | nil => exact List.not_mem_nil
  | cons p rest ih =>
    have hp := not_mem_writeParam h heq p
    cases rest with
    | nil => simpa [List.intercalate] using hp
    | cons q others =>
      rw [List.map_cons, List.map_cons, List.intercalate_cons_cons, List.mem_append,
        List.mem_append, List.mem_singleton, not_or, not_or]
      exact ⟨⟨hp, hamp⟩, ih⟩

theorem readQuery_writeQuery (params : List Param) :
    readQuery (writeQuery params) = sortParams params := by
  rw [readQuery, writeQuery]
  generalize sortParams params = sorted
  cases sorted with
  | nil => rfl
  | cons p rest =>
    have hcut : pieces '&' (List.intercalate ['&'] ((p :: rest).map writeParam)) =
        (p :: rest).map writeParam := by
      apply pieces_intercalate (by simp)
      intro part hpart
      obtain ⟨q, -, rfl⟩ := List.mem_map.mp hpart
      exact not_mem_writeParam (by decide) (by decide) q
    have hfull : ((p :: rest).map writeParam).filter (!·.isEmpty) = (p :: rest).map writeParam := by
      apply List.filter_eq_self.mpr
      intro part hpart
      obtain ⟨q, -, rfl⟩ := List.mem_map.mp hpart
      simp [writeParam]
    rw [hcut, hfull, List.map_map]
    exact (List.map_congr_left fun q _ => readParam_writeParam q).trans (List.map_id _)

/-- In a text that starts with a slash nothing is in front, and no scheme. -/
theorem clean_of_rooted {cs : List Char} (hroot : cs.head? = some '/')
    (hblank : ∀ c ∈ ['\t', '\n', '\r'], c ∉ cs) : clean cs = cs := by
  obtain ⟨rest, rfl⟩ := List.head?_eq_some_iff.mp hroot
  have hfront : ('/' :: rest).dropWhile (fun c => decide (c.toNat ≤ 0x20)) = '/' :: rest := rfl
  rw [clean, hfront]
  apply List.filter_eq_self.mpr
  intro c hc
  have hkept : c ∉ ['\t', '\n', '\r'] := fun hbad => hblank c hbad hc
  simp_all

theorem dropScheme_of_rooted {cs : List Char} (hroot : cs.head? = some '/') :
    dropScheme cs = cs := by
  obtain ⟨rest, rfl⟩ := List.head?_eq_some_iff.mp hroot
  rw [dropScheme]
  have hcut : (cut ':' ('/' :: rest)).1 = '/' :: (cut ':' rest).1 := rfl
  rcases hc : cut ':' ('/' :: rest) with ⟨scheme, after⟩
  rw [hc] at hcut
  cases after with
  | none => rfl
  | some after =>
    -- What is in front of the colon starts with a slash, so it is no scheme.
    have hscheme : scheme = '/' :: (cut ':' rest).1 := hcut
    rw [hscheme]
    rfl

end Url

namespace RelativeUrl

open Text Url

/-- An address whose text can be told apart into its parts again. -/
structure Writable (u : RelativeUrl) : Prop where
  rooted : u.path.toList.head? = some '/'
  /-- Two slashes in front would start an authority. -/
  single : ¬ ['/', '/'] <+: u.path.toList
  path : ∀ c ∈ u.path.toList, c ∉ ['?', '#', '\t', '\n', '\r']
  fragment : ∀ c ∈ u.fragment.toList, c ∉ ['\t', '\n', '\r']

/-- An address whose text can be told apart into its parts again, but for an authority. -/
structure Spelled (u : RelativeUrl) : Prop where
  rooted : u.path.toList.head? = some '/'
  path : ∀ c ∈ u.path.toList, c ∉ ['?', '#', '\t', '\n', '\r']
  fragment : ∀ c ∈ u.fragment.toList, c ∉ ['\t', '\n', '\r']

theorem Writable.spelled {u : RelativeUrl} (h : Writable u) : Spelled u :=
  ⟨h.rooted, h.path, h.fragment⟩

def tail (u : RelativeUrl) : List Char := u.queryText.toList ++ u.fragmentText.toList

theorem toList_text (u : RelativeUrl) : u.text.toList = u.path.toList ++ u.tail := by
  simp [text, tail, List.append_assoc]

theorem head?_tail (u : RelativeUrl) : u.tail.head? ≠ some '/' := by
  simp only [tail, queryText, fragmentText]
  split <;> split <;> simp_all

theorem not_mem_tail {u : RelativeUrl} (h : Spelled u) {c : Char} (hc : c ∈ ['\t', '\n', '\r']) :
    c ∉ u.tail := by
  have hform : ¬ Percent.IsFormChar c ∧ c ≠ '=' ∧ c ≠ '&' ∧ c ≠ '?' ∧ c ≠ '#' := by
    simp only [List.mem_cons, List.not_mem_nil, or_false] at hc
    rcases hc with rfl | rfl | rfl <;> decide
  obtain ⟨hsafe, heq, hamp, hquestion, hhash⟩ := hform
  have hquery := not_mem_writeQuery hsafe heq hamp u.params
  have hfragment : c ∉ u.fragment.toList := fun hm => h.fragment c hm hc
  simp only [tail, queryText, fragmentText, List.mem_append, not_or]
  constructor
  · split <;> simp [hquestion, hquery]
  · split <;> simp [hhash, hfragment]

theorem head?_text {u : RelativeUrl} (h : Spelled u) : u.text.toList.head? = some '/' := by
  obtain ⟨rest, hpath⟩ := List.head?_eq_some_iff.mp h.rooted
  rw [toList_text, hpath]
  rfl

theorem clean_text {u : RelativeUrl} (h : Spelled u) : clean u.text.toList = u.text.toList := by
  have hblank : ∀ c ∈ ['\t', '\n', '\r'], c ∉ u.text.toList := by
    intro c hbad
    rw [toList_text, List.mem_append, not_or]
    refine ⟨fun hc => ?_, not_mem_tail h hbad⟩
    exact h.path c hc (List.mem_cons_of_mem _ (List.mem_cons_of_mem _ hbad))
  exact clean_of_rooted (head?_text h) hblank

/-- The text of an address is read as it is, once what could be an authority is cut off. -/
theorem partsOfText_text {u : RelativeUrl} (h : Spelled u) :
    Parts.ofText u.text.toList = (do
      checkAuthority (cutAuthority u.text.toList).1
      return Parts.ofTail (cutAuthority u.text.toList).2) := by
  rw [Parts.ofText, clean_text h, dropScheme_of_rooted (head?_text h)]

theorem cutAuthority_text {u : RelativeUrl} (h : Writable u) :
    cutAuthority u.text.toList = ([], u.text.toList) := by
  obtain ⟨rest, hpath⟩ := List.head?_eq_some_iff.mp h.rooted
  have hsecond : ∀ others, u.text.toList ≠ '/' :: '/' :: others := by
    intro others heq
    rw [toList_text, hpath, List.cons_append, List.cons.injEq] at heq
    cases rest with
    | nil =>
      have htail : u.tail = '/' :: others := heq.2
      apply head?_tail u
      rw [htail]
      rfl
    | cons c cs =>
      have hc : c = '/' := (List.cons.inj heq.2).1
      exact h.single (by rw [hpath, hc]; exact ⟨cs, rfl⟩)
  unfold cutAuthority
  split
  · rename_i others heq
    exact absurd heq (hsecond others)
  · rfl

section Parts
variable {u : RelativeUrl} (h : ∀ c ∈ u.path.toList, c ∉ ['?', '#', '\t', '\n', '\r'])
include h

theorem cut_fragment :
    cut '#' u.text.toList = (u.path.toList ++ u.queryText.toList,
      if u.fragment = "" then none else some u.fragment.toList) := by
  have hpath : '#' ∉ u.path.toList := fun hm => h '#' hm (by decide)
  have hquery : '#' ∉ u.queryText.toList := by
    rw [queryText]
    split
    · exact List.not_mem_nil
    · simp [not_mem_writeQuery (c := '#') (by decide) (by decide) (by decide) u.params]
  have hbody : '#' ∉ u.path.toList ++ u.queryText.toList := by
    rw [List.mem_append, not_or]
    exact ⟨hpath, hquery⟩
  rw [toList_text, tail, ← List.append_assoc, fragmentText]
  split
  · simpa using cut_eq_self hbody
  · simpa using cut_append_cons hbody u.fragment.toList

theorem cut_query :
    cut '?' (u.path.toList ++ u.queryText.toList) = (u.path.toList,
      if u.params.isEmpty then none else some (writeQuery u.params)) := by
  have hpath : '?' ∉ u.path.toList := fun hm => h '?' hm (by decide)
  rw [queryText]
  split
  · simpa using cut_eq_self hpath
  · simpa using cut_append_cons hpath (writeQuery u.params)

theorem ofTail_text :
    Parts.ofTail u.text.toList =
      ⟨u.path.toList, writeQuery u.params, u.fragment.toList⟩ := by
  rw [Parts.ofTail, cut_fragment h]
  dsimp only
  rw [cut_query h]
  dsimp only
  have hquery : (if u.params.isEmpty then none else some (writeQuery u.params)).getD [] =
      writeQuery u.params := by
    split
    · rename_i hp
      rw [List.isEmpty_iff.mp hp]
      rfl
    · rfl
  have hfragment : (if u.fragment = "" then none else some u.fragment.toList).getD [] =
      u.fragment.toList := by
    split
    · rename_i hf
      rw [hf]
      rfl
    · rfl
  rw [hquery, hfragment]

end Parts

/-- An address is read back from its text, its parameters sorted by name. -/
theorem ofText_text {u : RelativeUrl} (h : Writable u) :
    ofText u.text = .ok ⟨u.path, sortParams u.params, u.fragment⟩ := by
  have hparts : Parts.ofText u.text.toList =
      .ok ⟨u.path.toList, writeQuery u.params, u.fragment.toList⟩ := by
    rw [partsOfText_text h.spelled, cutAuthority_text h]
    dsimp only
    rw [ofTail_text h.path]
    rfl
  have hparsed : ofParts ⟨u.path.toList, writeQuery u.params, u.fragment.toList⟩ =
      ⟨u.path, sortParams u.params, u.fragment⟩ := by
    simp only [ofParts, RelativeUrl.rooted, h.rooted, if_true, readQuery_writeQuery,
      String.ofList_toList]
  rw [ofText, hparts, ← hparsed]
  rfl

/-! Addresses that were read. -/

theorem mem_of_mem_dropScheme {c : Char} {cs : List Char} (h : c ∈ dropScheme cs) : c ∈ cs := by
  unfold dropScheme at h
  split at h
  · rename_i scheme rest hcut
    split at h
    · exact mem_of_mem_cut_snd (by rw [hcut]) h
    · exact h
  · exact h

theorem mem_of_mem_cutAuthority {c : Char} {cs : List Char} (h : c ∈ (cutAuthority cs).2) :
    c ∈ cs := by
  unfold cutAuthority at h
  split at h
  · exact List.mem_cons_of_mem _ (List.mem_cons_of_mem _ ((List.dropWhile_sublist _).subset h))
  · exact h

theorem not_mem_clean {c : Char} (h : c ∈ ['\t', '\n', '\r']) (cs : List Char) : c ∉ clean cs := by
  intro hc
  have hkept := (List.mem_filter.mp hc).2
  simp_all

theorem head?_rooted (path : List Char) : (RelativeUrl.rooted path).head? = some '/' := by
  unfold RelativeUrl.rooted
  split
  · assumption
  · rfl

theorem mem_rooted {c : Char} {path : List Char} (h : c ∈ RelativeUrl.rooted path) :
    c = '/' ∨ c ∈ path := by
  unfold RelativeUrl.rooted at h
  split at h
  · exact Or.inr h
  · exact List.mem_cons.mp h

theorem spelled_of_ofText {s : String} {u : RelativeUrl} (h : ofText s = .ok u) : Spelled u := by
  obtain ⟨parts, hparts, rfl⟩ : ∃ parts, Parts.ofText s.toList = .ok parts ∧ ofParts parts = u := by
    cases hp : Parts.ofText s.toList <;> rw [ofText, hp] at h <;> cases h
    exact ⟨_, rfl, rfl⟩
  have htail : Parts.ofTail (cutAuthority (dropScheme (clean s.toList))).2 = parts := by
    obtain ⟨_, -, htail⟩ := Answer.bind_eq_ok.mp hparts
    exact Except.ok.inj htail
  have hclean : ∀ c ∈ (cutAuthority (dropScheme (clean s.toList))).2, c ∉ ['\t', '\n', '\r'] :=
    fun c hc hbad => not_mem_clean hbad _ (mem_of_mem_dropScheme (mem_of_mem_cutAuthority hc))
  generalize (cutAuthority (dropScheme (clean s.toList))).2 = rest at htail hclean
  subst htail
  refine ⟨?_, ?_, ?_⟩
  · simpa [ofParts] using head?_rooted _
  · intro c hc
    simp only [ofParts, Parts.ofTail, String.toList_ofList] at hc
    rcases mem_rooted hc with rfl | hpath
    · decide
    · have hbody := mem_of_mem_cut_fst hpath
      have hquestion : c ≠ '?' := fun he => not_mem_cut_fst '?' _ (he ▸ hpath)
      have hhash : c ≠ '#' := fun he => not_mem_cut_fst '#' _ (he ▸ hbody)
      have hblank := hclean c (mem_of_mem_cut_fst hbody)
      simp_all
  · intro c hc
    simp only [ofParts, Parts.ofTail, String.toList_ofList] at hc
    cases hcut : (cut '#' rest).2 with
    | none => simp [hcut] at hc
    | some fragment =>
      rw [hcut] at hc
      exact hclean c (mem_of_mem_cut_snd hcut hc)

/-- An address that was read can be written, unless its path starts with two slashes. -/
theorem writable_of_ofText {s : String} {u : RelativeUrl} (h : ofText s = .ok u)
    (hsingle : ¬ ['/', '/'] <+: u.path.toList) : Writable u :=
  have hspelled := spelled_of_ofText h
  ⟨hspelled.rooted, hsingle, hspelled.path, hspelled.fragment⟩

end RelativeUrl

end DocumentApi
