import DocumentApi.Proofs.Json.Reading
import DocumentApi.Proofs.Number.Decimal

/-!
Integers that are too long to be converted. Only these are scalars of JSON text that the reader
cannot take, and it stops at the first of them that stands where a value can. Main statement:
`read_eq_number_iff`.
-/

set_option autoImplicit false

namespace DocumentApi.Json

open Numeral (isPlainDigit maxDigits minus)

/-! Numbers. -/

/-- A text that starts with an integer of more digits than can be converted. -/
inductive LongInteger : List Char → Nat → Prop where
  | mk {whole after : List Char} (negative : Bool)
    (digits : ∀ c ∈ whole, isPlainDigit c = true) (leading : whole.head? ≠ some '0')
    (long : maxDigits < whole.length) (ends : ∀ c ∈ after.head?, isPlainDigit c = false)
    (fraction : fractionLength after = 0) (exponent : exponentLength after = 0) :
    LongInteger (minus negative ++ (whole ++ after)) whole.length

theorem exists_minus (cs : List Char) :
    ∃ negative body, cs = minus negative ++ body ∧ (negative = false → body.head? ≠ some '-') := by
  by_cases h : cs.head? = some '-'
  · obtain ⟨rest, rfl⟩ := List.head?_eq_some_iff.mp h
    exact ⟨true, rest, rfl, by simp⟩
  · exact ⟨false, cs, rfl, fun _ => h⟩

theorem wholeLength_of_head? {body : List Char} (h : body.head? ≠ some '0') :
    wholeLength body = (body.takeWhile isPlainDigit).length := by
  unfold wholeLength
  split
  · exact absurd rfl h
  · rfl

/-- The digits before a fraction and an exponent: a zero, or all that there are. -/
theorem exists_whole (body : List Char) :
    ∃ whole after, body = whole ++ after ∧ wholeLength body = whole.length ∧
      (∀ c ∈ whole, isPlainDigit c = true) ∧
      (whole = ['0'] ∨ whole.head? ≠ some '0' ∧ ∀ c ∈ after.head?, isPlainDigit c = false) := by
  by_cases hzero : body.head? = some '0'
  · obtain ⟨rest, rfl⟩ := List.head?_eq_some_iff.mp hzero
    exact ⟨['0'], rest, rfl, rfl, List.forall_mem_singleton.mpr rfl, .inl rfl⟩
  · refine ⟨body.takeWhile isPlainDigit, body.dropWhile isPlainDigit, ?_, ?_, ?_, .inr ⟨?_, ?_⟩⟩
    · exact List.takeWhile_append_dropWhile.symm
    · exact wholeLength_of_head? hzero
    · exact fun c => List.mem_takeWhile_imp
    · rw [List.head?_takeWhile]
      exact fun hhead => hzero (Option.filter_eq_some_iff.mp hhead).1
    · intro c hc
      have hends := List.head?_dropWhile_not isPlainDigit body
      rwa [hc] at hends

section Number
variable {negative : Bool} {whole after : List Char} {fault : Numeral.IntFault}

theorem signLength_minus {body : List Char} (h : negative = false → body.head? ≠ some '-') :
    (if (minus negative ++ body).head? = some '-' then 1 else 0) = (minus negative).length := by
  cases negative with
  | true => rfl
  | false => exact if_neg (h rfl)

/-- A number that cannot be converted has no fraction and no exponent. -/
theorem number_eq_badScalar_iff (hlength : wholeLength (whole ++ after) = whole.length)
    (hsign : negative = false → (whole ++ after).head? ≠ some '-') :
    (number (minus negative ++ (whole ++ after))).1 = .badScalar (.number fault) ↔
      whole ≠ [] ∧ fractionLength after = 0 ∧ exponentLength after = 0 ∧
        Numeral.readPlainInt (minus negative ++ whole) = .error fault := by
  have hafter : (minus negative ++ (whole ++ after)).drop
      ((minus negative).length + whole.length) = after := by
    rw [← List.drop_drop, List.drop_left, List.drop_left]
  have htext : (minus negative ++ (whole ++ after)).take
      ((minus negative).length + whole.length) = minus negative ++ whole := by
    rw [← List.append_assoc]
    exact List.take_left' List.length_append
  unfold number
  simp only [signLength_minus hsign, List.drop_left, hlength, hafter]
  by_cases hwhole : whole = []
  · simp [hwhole]
  rw [if_neg (by simpa using hwhole)]
  by_cases hfraction : fractionLength after = 0
  · by_cases hexponent : exponentLength after = 0
    · simp only [hfraction, Nat.add_zero, hafter, hexponent, htext, and_self, if_true, hwhole,
        ne_eq, not_false_iff, true_and]
      cases Numeral.readPlainInt (minus negative ++ whole) <;> simp
    · simp [hfraction, hafter, hexponent]
  · simp [hfraction]

end Number

theorem ne_nil_of_long {whole : List Char} (h : maxDigits < whole.length) : whole ≠ [] := by
  rintro rfl
  exact Nat.not_lt_zero _ h

theorem number_eq_badScalar {cs : List Char} {fault : Numeral.IntFault} :
    (number cs).1 = .badScalar (.number fault) ↔
      ∃ digits, LongInteger cs digits ∧ fault = .tooLong digits := by
  constructor
  · intro h
    obtain ⟨negative, body, rfl, hsign⟩ := exists_minus cs
    obtain ⟨whole, after, rfl, hlength, hdigits, hends⟩ := exists_whole body
    obtain ⟨hwhole, hfraction, hexponent, hread⟩ := (number_eq_badScalar_iff hlength hsign).mp h
    rw [Numeral.readPlainInt_of_digits hdigits hwhole] at hread
    split at hread
    · rename_i hlong
      cases hread
      rcases hends with rfl | ⟨hleading, hends⟩
      · exact absurd hlong (by decide)
      · exact ⟨_, .mk negative hdigits hleading hlong hends hfraction hexponent, rfl⟩
    · cases hread
  · rintro ⟨_, ⟨negative, hdigits, hleading, hlong, hends, hfraction, hexponent⟩, rfl⟩
    rename_i whole after
    have hwhole := ne_nil_of_long hlong
    obtain ⟨first, rest, hcons⟩ := List.exists_cons_of_ne_nil hwhole
    have hhead : (whole ++ after).head? = whole.head? := by simp [hcons]
    have hrun : (whole ++ after).takeWhile isPlainDigit = whole := by
      rw [List.takeWhile_append_of_pos hdigits]
      cases after with
      | nil => simp
      | cons c others => simp [hends c rfl]
    refine (number_eq_badScalar_iff ?_ ?_).mpr ⟨hwhole, hfraction, hexponent, ?_⟩
    · rw [wholeLength_of_head? (hhead ▸ hleading), hrun]
    · intro _ hminus
      rw [hhead] at hminus
      exact absurd (hdigits '-' (List.mem_of_head? hminus)) (by decide)
    · rw [Numeral.readPlainInt_of_digits hdigits hwhole, if_pos hlong]

/-! Tokens. -/

theorem not_prefix_of_mem_words {word : String × Value} (hword : word ∈ words) {cs : List Char}
    {d : Char} (hd : isPlainDigit d = true) (hmem : d ∈ cs.take 2) : ¬ word.1.toList <+: cs := by
  have hwords : ∀ word ∈ words, 2 ≤ word.1.toList.length ∧
      (word.1.toList.take 2).all (!isPlainDigit ·) = true := by decide +kernel
  obtain ⟨htwo, hnone⟩ := hwords word hword
  rintro ⟨rest, rfl⟩
  rw [List.take_append_of_le_length htwo] at hmem
  have hnot := List.all_eq_true.mp hnone d hmem
  simp [hd] at hnot

/-- The characters that start a token which is neither a word nor a number. -/
def marks : List Char := ['[', ']', '\x7b', '\x7d', ':', ',', '"']

theorem lexeme_of_not_mem_words {c : Char} {rest : List Char}
    (hc : c ∉ marks)
    (hwords : ∀ word ∈ words, ¬ word.1.toList <+: c :: rest) (position : Nat) :
    lexeme position c rest = number (c :: rest) := by
  have hfind : words.find? (fun word => word.1.toList.isPrefixOf (c :: rest)) = none := by
    rw [List.find?_eq_none]
    intro word hword
    simpa using hwords word hword
  unfold lexeme
  rw [hfind]
  split <;> first | rfl | simp [marks] at hc

/-- A long integer starts with a digit or a sign, and no other token starts with these. -/
theorem lexeme_of_longInteger {c : Char} {rest : List Char} {digits : Nat}
    (h : LongInteger (c :: rest) digits) (position : Nat) :
    lexeme position c rest = number (c :: rest) := by
  generalize hcs : c :: rest = cs at h
  obtain ⟨negative, hdigits, -, hlong, -, -, -⟩ := h
  rename_i whole after
  obtain ⟨d, others, rfl⟩ := List.exists_cons_of_ne_nil (ne_nil_of_long hlong)
  have hd := hdigits d List.mem_cons_self
  rw [← hcs]
  cases negative with
  | false =>
    cases hcs
    refine lexeme_of_not_mem_words ?_ (fun word hword => ?_) position
    · have hmarks : marks.all (!isPlainDigit ·) = true := by decide
      intro hc
      have hnot := List.all_eq_true.mp hmarks c hc
      simp [hd] at hnot
    · exact not_prefix_of_mem_words hword hd (by simp)
  | true =>
    cases hcs
    refine lexeme_of_not_mem_words (by decide) (fun word hword => ?_) position
    exact not_prefix_of_mem_words hword hd (by simp)

theorem lexeme_eq_badScalar {position : Nat} {c : Char} {rest : List Char}
    {fault : Numeral.IntFault} :
    (lexeme position c rest).1 = .badScalar (.number fault) ↔
      ∃ digits, LongInteger (c :: rest) digits ∧ fault = .tooLong digits := by
  constructor
  · intro h
    rw [← number_eq_badScalar]
    unfold lexeme at h
    split at h
    case h_7 => split at h <;> cases h
    case h_8 =>
      split at h
      · cases h
      · exact h
    all_goals cases h
  · rintro ⟨digits, hlong, rfl⟩
    rw [lexeme_of_longInteger hlong, number_eq_badScalar]
    exact ⟨digits, hlong, rfl⟩

theorem number_ne_badString {cs : List Char} {fault : Fault} :
    (number cs).1 ≠ .badString fault := by
  unfold number
  dsimp only
  generalize (if cs.head? = some '-' then 1 else 0) = signLength
  split
  · simp
  · split
    · split <;> simp
    · simp

theorem lexeme_ne_badString {position : Nat} {c : Char} {rest : List Char}
    {fault : Numeral.IntFault} : (lexeme position c rest).1 ≠ .badString (.number fault) := by
  unfold lexeme
  split
  case h_7 => split <;> simp
  case h_8 =>
    split
    · simp
    · exact number_ne_badString
  all_goals simp

/-- A token stands where its text starts. -/
theorem exists_lexeme_of_mem_tokens {start position : Nat} {cs : List Char} {token : Token}
    (h : (position, token) ∈ tokens start cs) :
    start ≤ position ∧ ∃ c rest, cs.drop (position - start) = c :: rest ∧
      (lexeme position c rest).1 = token := by
  fun_induction tokens start cs with
  | case1 => cases h
  | case2 start c rest hblank ih =>
    obtain ⟨hle, d, others, hdrop, htoken⟩ := ih h
    refine ⟨by omega, d, others, ?_, htoken⟩
    have hindex : position - start = position - (start + 1) + 1 := by omega
    rw [hindex, List.drop_succ_cons, hdrop]
  | case3 start c rest hblank found length hlexeme ih =>
    rcases List.mem_cons.mp h with hfirst | hrest
    · cases hfirst
      refine ⟨Nat.le_refl _, c, rest, by simp, by rw [hlexeme]⟩
    · obtain ⟨hle, d, others, hdrop, htoken⟩ := ih hrest
      have hindex : position - start = length - 1 + (position - (start + max length 1)) + 1 := by
        omega
      refine ⟨by omega, d, others, ?_, htoken⟩
      rw [hindex, List.drop_succ_cons, ← hdrop, List.drop_drop]

/-! Reading. -/

/-- An integer of too many digits stands where the first part of the text expects a value. -/
def ComesToLongInteger (text : List Char) (digits : Nat) : Prop :=
  text.head? ≠ some '\ufeff' ∧ ∃ before position token after,
    tokens 0 text = before ++ (position, token) :: after ∧
      ValueMayFollow (before.map (·.2)) ∧ LongInteger (text.drop position) digits

section Read
variable {text : List Char} {fault : Numeral.IntFault}

theorem token_eq_badScalar_iff {position : Nat} {token : Token}
    (h : (position, token) ∈ tokens 0 text) :
    token = .badScalar (.number fault) ↔
      ∃ digits, LongInteger (text.drop position) digits ∧ fault = .tooLong digits := by
  obtain ⟨-, c, rest, hdrop, rfl⟩ := exists_lexeme_of_mem_tokens h
  rw [Nat.sub_zero] at hdrop
  rw [lexeme_eq_badScalar, hdrop]

/-- The reader stops at a number only if it comes to an integer that is too long. -/
theorem read_eq_number_iff :
    read text = .error (.number fault) ↔
      ∃ digits, ComesToLongInteger text digits ∧ fault = .tooLong digits := by
  have hstrings : ∀ p, (p, .badString (.number fault)) ∉ tokens 0 text := by
    intro p hp
    obtain ⟨-, c, rest, -, htoken⟩ := exists_lexeme_of_mem_tokens hp
    exact lexeme_ne_badString htoken
  have hmem {before after : List (Nat × Token)} {position : Nat} {token : Token}
      (htokens : tokens 0 text = before ++ (position, token) :: after) :
      (position, token) ∈ tokens 0 text :=
    htokens ▸ List.mem_append_right before List.mem_cons_self
  unfold read
  split
  · rename_i hmark
    simp [ComesToLongInteger, hmark]
  rename_i hmark
  rw [readTokens_eq_number_iff hstrings]
  constructor
  · rintro ⟨before, position, after, state, htokens, hstate⟩
    obtain ⟨digits, hlong, hfault⟩ := (token_eq_badScalar_iff (hmem htokens)).mp rfl
    have hvalue := valueMayFollow_iff.mpr ⟨state, hstate⟩
    exact ⟨digits, ⟨hmark, before, position, _, after, htokens, hvalue, hlong⟩, hfault⟩
  · rintro ⟨digits, ⟨-, before, position, token, after, htokens, hvalue, hlong⟩, hfault⟩
    have htoken : token = .badScalar (.number fault) :=
      (token_eq_badScalar_iff (hmem htokens)).mpr ⟨digits, hlong, hfault⟩
    obtain ⟨state, hstate⟩ := valueMayFollow_iff.mp hvalue
    exact ⟨before, position, after, state, htoken ▸ htokens, hstate⟩

end Read

end DocumentApi.Json
