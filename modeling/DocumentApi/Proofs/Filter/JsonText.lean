import DocumentApi.Filter.Form
import DocumentApi.Proofs.Json.LongInteger

/-!
The filter that JSON text carries. It is the object that the text is written for; every other text
is refused as one that the client has to mend, except for a text in which an integer comes that is
too long to be converted. Main statement: `parseJson_string`.
-/

set_option autoImplicit false

namespace DocumentApi.FilterForm

section Text
variable {s : String}

theorem parseJson_of_ne (h : s ≠ "") : parseJson (.string s) = some <$> readObject s := if_neg h

theorem readObject_eq_ok_iff {fields : Record Value} :
    readObject s = .ok fields ↔ Json.IsTextOf s.toList (.object fields) := by
  rw [← Json.read_eq_ok_iff, readObject]
  cases Json.read s.toList with
  | ok v => cases v <;> simp [notAnObject]
  | error fault => cases fault <;> simp

theorem readObject_eq_numeral_iff {fault : Numeral.IntFault} :
    readObject s = .error (.numeral s fault) ↔
      ∃ digits, Json.ComesToLongInteger s.toList digits ∧ fault = .tooLong digits := by
  rw [← Json.read_eq_number_iff, readObject]
  cases Json.read s.toList with
  | ok v => cases v <;> simp [notAnObject, Failure.ofProblem]
  | error fault => cases fault <;> simp [Failure.ofProblem]

/-- What is not read is refused, unless it is for a number. -/
theorem readObject_error {failure : Failure} (h : readObject s = .error failure) :
    (∃ detail, failure = .ofProblem .filterText detail) ∨ ∃ fault, failure = .numeral s fault := by
  unfold readObject at h
  split at h
  · cases h
  · cases h
    exact .inl ⟨_, rfl⟩
  · cases h
    exact .inl ⟨_, rfl⟩
  · cases h
    exact .inr ⟨_, rfl⟩

end Text

theorem not_isTextOf_nil (v : Value) : ¬ Json.IsTextOf [] v := by
  rw [← Json.read_eq_ok_iff]
  simp [Json.read, Json.readTokens, Json.tokens]

theorem not_comesToLongInteger_nil (digits : Nat) : ¬ Json.ComesToLongInteger [] digits := by
  rintro ⟨-, before, position, token, after, htokens, -⟩
  simp [Json.tokens] at htokens

/-- A text carries nothing if it is empty, and an object if it is JSON text of one. All others are
refused, but for those in which the reader comes to an integer that is too long. -/
theorem parseJson_string (s : String) :
    (parseJson (.string s) = .ok none ↔ s = "") ∧
      (∀ fields, parseJson (.string s) = .ok (some fields) ↔
        Json.IsTextOf s.toList (.object fields)) ∧
      (∀ digits, parseJson (.string s) = .error (.numeral s (.tooLong digits)) ↔
        Json.ComesToLongInteger s.toList digits) ∧
      ((∃ p, parseJson (.string s) = .error (.problem p) ∧ p.kind = .filterText ∧ p.status = 400) ↔
        s ≠ "" ∧ (∀ fields, ¬ Json.IsTextOf s.toList (.object fields)) ∧
          ∀ digits, ¬ Json.ComesToLongInteger s.toList digits) := by
  by_cases hs : s = ""
  · subst hs
    have hnone : parseJson (.string "") = .ok none := rfl
    have hnil : "".toList = [] := rfl
    simp [hnone, hnil, not_isTextOf_nil, not_comesToLongInteger_nil]
  rw [parseJson_of_ne hs]
  refine ⟨?_, fun fields => ?_, fun digits => ?_, ?_⟩
  · simp [Answer.map_eq_ok, hs]
  · rw [Answer.map_eq_ok, ← readObject_eq_ok_iff]
    simp
  · rw [Answer.map_eq_error, readObject_eq_numeral_iff]
    simp
  · constructor
    · rintro ⟨p, hp, -⟩
      rw [Answer.map_eq_error] at hp
      refine ⟨hs, fun fields hfields => ?_, fun digits hdigits => ?_⟩
      · cases (readObject_eq_ok_iff.mpr hfields).symm.trans hp
      · cases (readObject_eq_numeral_iff.mpr ⟨digits, hdigits, rfl⟩).symm.trans hp
    · rintro ⟨-, hobject, hlong⟩
      cases hread : readObject s with
      | ok fields => exact absurd (readObject_eq_ok_iff.mp hread) (hobject fields)
      | error failure =>
        rcases readObject_error hread with ⟨detail, rfl⟩ | ⟨fault, rfl⟩
        · exact ⟨_, rfl, rfl, rfl⟩
        · obtain ⟨digits, hdigits, -⟩ := readObject_eq_numeral_iff.mp hread
          exact absurd hdigits (hlong digits)

/-- An integer that has a one for each of its digits. -/
def repunit (digits : Nat) : String := String.ofList (List.replicate digits '1')

theorem longInteger_repunit {digits : Nat} (h : Numeral.maxDigits < digits) :
    Json.LongInteger (repunit digits).toList digits := by
  have hones : ∀ c ∈ List.replicate digits '1', Numeral.isPlainDigit c = true := by
    intro c hc
    rw [List.eq_of_mem_replicate hc]
    rfl
  have hleading : (List.replicate digits '1').head? ≠ some '0' := by
    rw [List.head?_replicate]
    split <;> simp
  have hends : ∀ c ∈ ([] : List Char).head?, Numeral.isPlainDigit c = false := by simp
  have hlong : Numeral.maxDigits < (List.replicate digits '1').length := by
    rwa [List.length_replicate]
  simpa [repunit, Numeral.minus] using Json.LongInteger.mk false hones hleading hlong hends rfl rfl

/-- A long integer that is all of the text is the first thing that the reader comes to. -/
theorem comesToLongInteger_repunit {digits : Nat} (h : Numeral.maxDigits < digits) :
    Json.ComesToLongInteger (repunit digits).toList digits := by
  obtain ⟨rest, hrest⟩ : ∃ rest, (repunit digits).toList = '1' :: rest := by
    obtain ⟨n, rfl⟩ := Nat.exists_eq_succ_of_ne_zero (Nat.ne_zero_of_lt h)
    exact ⟨List.replicate n '1', by simp [repunit, List.replicate_succ]⟩
  have htokens : ∃ token after, Json.tokens 0 (repunit digits).toList = (0, token) :: after := by
    have hblank : Json.isBlank '1' = false := rfl
    rw [hrest, Json.tokens, hblank]
    exact ⟨_, _, rfl⟩
  obtain ⟨token, after, htokens⟩ := htokens
  have hvalue : Json.ValueMayFollow [] := ⟨.null, [], .null, .scalar .null⟩
  exact ⟨by simp [hrest], [], 0, token, after, htokens, hvalue, longInteger_repunit h⟩

/-- The text of an integer that is too long is no object, but it is not refused for that. -/
theorem parseJson_repunit :
    parseJson (.string (repunit 4301)) = .error (.numeral (repunit 4301) (.tooLong 4301)) ∧
      (Failure.numeral (repunit 4301) (.tooLong 4301)).problem? = none := by
  have hlong : Json.ComesToLongInteger (repunit 4301).toList 4301 :=
    comesToLongInteger_repunit (by decide)
  have hne : repunit 4301 ≠ "" := by
    intro hempty
    rw [hempty] at hlong
    exact not_comesToLongInteger_nil 4301 hlong
  have hread := readObject_eq_numeral_iff.mpr ⟨4301, hlong, rfl⟩
  rw [parseJson_of_ne hne, hread]
  exact ⟨rfl, rfl⟩

end DocumentApi.FilterForm
