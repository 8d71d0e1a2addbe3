import DocumentApi.Store.Query

/-!
What the patterns find that the tests for the start and the end of a text become. A pattern is read
here as far as it has nothing but characters that stand for themselves and the marks of the two
ends; a pattern with anything else in it finds nothing. Main statements: `found_startWith_iff`,
`found_endWith_iff`.
-/

set_option autoImplicit false

namespace DocumentApi.Pattern

inductive Token where
  | start
  | finish
  | char (c : Char)
deriving DecidableEq, Repr

/-- The characters that mean something else than themselves. -/
def metacharacters : List Char := ".^$*+?\x7b\x7d[]()|\\".toList

/-- A backslash makes a character that is no letter and no digit stand for itself. -/
def tokens? : List Char → Option (List Token)
  | [] => some []
  | '^' :: rest => (.start :: ·) <$> tokens? rest
  | '$' :: rest => (.finish :: ·) <$> tokens? rest
  | '\\' :: c :: rest => if c.isAlphanum then none else (.char c :: ·) <$> tokens? rest
  | c :: rest => if c ∈ metacharacters then none else (.char c :: ·) <$> tokens? rest

/-- The end of a text, and the place before a line break that ends it. -/
def AtEnd (after : List Char) : Prop := after = [] ∨ after = ['\n']

/-- Tokens that match at a place of a text, given what is before it and what is after it. -/
inductive Matches : List Token → List Char → List Char → Prop where
  | nil {before after : List Char} : Matches [] before after
  | start {tokens : List Token} {after : List Char} (h : Matches tokens [] after) :
    Matches (.start :: tokens) [] after
  | finish {tokens : List Token} {before after : List Char} (hend : AtEnd after)
      (h : Matches tokens before after) : Matches (.finish :: tokens) before after
  | char {c : Char} {tokens : List Token} {before after : List Char}
      (h : Matches tokens (before ++ [c]) after) : Matches (.char c :: tokens) before (c :: after)

/-- Whether a pattern matches at some place of a text. -/
def Found (pattern text : String) : Prop :=
  ∃ tokens ∈ tokens? pattern.toList, ∃ before after,
    text.toList = before ++ after ∧ Matches tokens before after

open StoreQuery

section Reading
variable {c : Char} {rest : List Char}

theorem tokens?_escaped (h : c.isAlphanum = false) :
    tokens? ('\\' :: c :: rest) = (.char c :: ·) <$> tokens? rest := by
  simp [tokens?, h]

theorem tokens?_plain (h : c ∉ metacharacters) :
    tokens? (c :: rest) = (.char c :: ·) <$> tokens? rest := by
  have hstart : c ≠ '^' := fun he => h (he ▸ by decide)
  have hfinish : c ≠ '$' := fun he => h (he ▸ by decide)
  have hescape : c ≠ '\\' := fun he => h (he ▸ by decide)
  rw [tokens?.eq_def]
  split <;> simp_all

theorem not_isAlphanum_of_mem_patternSpecials (h : c ∈ patternSpecials) : c.isAlphanum = false := by
  have hall : (patternSpecials.all fun c => !c.isAlphanum) = true := by decide
  simpa using List.all_eq_true.mp hall c h

theorem not_mem_metacharacters (h : c ∉ patternSpecials) : c ∉ metacharacters := by
  have hall : (metacharacters.all fun c => decide (c ∈ patternSpecials)) = true := by decide
  exact fun hm => h (by simpa using List.all_eq_true.mp hall c hm)

/-- An escaped text is read as its characters, each of them standing for itself. -/
theorem tokens?_escapePattern (cs rest : List Char) :
    tokens? (escapePattern cs ++ rest) = (cs.map .char ++ ·) <$> tokens? rest := by
  induction cs with
  | nil => simp [escapePattern]
  | cons c cs ih =>
    have hcons : tokens? (escapePattern (c :: cs) ++ rest) =
        (.char c :: ·) <$> tokens? (escapePattern cs ++ rest) := by
      by_cases hc : c ∈ patternSpecials
      · simpa [escapePattern, hc] using tokens?_escaped (not_isAlphanum_of_mem_patternSpecials hc)
      · simpa [escapePattern, hc] using tokens?_plain (not_mem_metacharacters hc)
    rw [hcons, ih]
    cases tokens? rest <;> rfl

end Reading

section Matching
variable {tokens : List Token} {before after : List Char}

theorem matches_start_iff : Matches (.start :: tokens) before after ↔
    before = [] ∧ Matches tokens [] after := by
  constructor
  · rintro ⟨⟩
    exact ⟨rfl, ‹_›⟩
  · rintro ⟨rfl, h⟩
    exact .start h

theorem matches_finish_iff : Matches [.finish] before after ↔ AtEnd after := by
  constructor
  · rintro ⟨⟩
    assumption
  · exact fun h => .finish h .nil

theorem matches_chars_iff {cs : List Char} : Matches (cs.map .char ++ tokens) before after ↔
    ∃ tail, after = cs ++ tail ∧ Matches tokens (before ++ cs) tail := by
  induction cs generalizing before after with
  | nil => simp
  | cons c cs ih =>
    constructor
    · rintro ⟨⟩
      rename_i after h
      obtain ⟨tail, rfl, ht⟩ := ih.mp h
      exact ⟨tail, rfl, by simpa using ht⟩
    · rintro ⟨tail, rfl, ht⟩
      exact .char (ih.mpr ⟨tail, rfl, by simpa using ht⟩)

end Matching

theorem found_iff_of_tokens? {pattern : String} {tokens : List Token}
    (h : tokens? pattern.toList = some tokens) (text : String) :
    Found pattern text ↔
      ∃ before after, text.toList = before ++ after ∧ Matches tokens before after := by
  simp [Found, h]

theorem toList_literal (v : String) : (literal (.string v)).toList = escapePattern v.toList :=
  String.toList_ofList

theorem tokens?_startWith (v : String) :
    tokens? ("^" ++ literal (.string v)).toList = some (.start :: v.toList.map .char) := by
  have hread := tokens?_escapePattern v.toList []
  rw [List.append_nil] at hread
  simp [toList_literal, tokens?, hread]

theorem tokens?_endWith (v : String) :
    tokens? (literal (.string v) ++ "$").toList = some (v.toList.map .char ++ [.finish]) := by
  simp [toList_literal, tokens?, tokens?_escapePattern]

/-- The test for the start of a text becomes a pattern that is found in exactly the texts that start
with the given one, whatever characters it has. -/
theorem found_startWith_iff (v : String) :
    ∃ pattern, clause "$start" (.string v) = ("$regex", .string pattern) ∧
      ∀ text, Found pattern text ↔ v.toList <+: text.toList := by
  refine ⟨"^" ++ literal (.string v), rfl, fun text => ?_⟩
  have hchars : ∀ before after, Matches (v.toList.map .char) before after ↔
      ∃ tail, after = v.toList ++ tail := by
    intro before after
    rw [← List.append_nil (v.toList.map Token.char), matches_chars_iff]
    exact exists_congr fun tail => and_iff_left .nil
  rw [found_iff_of_tokens? (tokens?_startWith v)]
  simp only [matches_start_iff, hchars]
  constructor
  · rintro ⟨before, after, htext, rfl, tail, rfl⟩
    exact ⟨tail, htext.symm⟩
  · rintro ⟨tail, htail⟩
    exact ⟨[], text.toList, rfl, rfl, tail, htail.symm⟩

/-- The test for the end of a text becomes a pattern that is found in exactly the texts that end
with the given one, or with it and a line break: the mark of the end does not ask for the very end. -/
theorem found_endWith_iff (v : String) :
    ∃ pattern, clause "$end" (.string v) = ("$regex", .string pattern) ∧
      ∀ text, Found pattern text ↔
        v.toList <:+ text.toList ∨ v.toList ++ ['\n'] <:+ text.toList := by
  refine ⟨literal (.string v) ++ "$", rfl, fun text => ?_⟩
  rw [found_iff_of_tokens? (tokens?_endWith v)]
  simp only [matches_chars_iff, matches_finish_iff]
  constructor
  · rintro ⟨before, _, htext, tail, rfl, rfl | rfl⟩
    · exact Or.inl ⟨before, by simp [htext]⟩
    · exact Or.inr ⟨before, htext.symm⟩
  · rintro (⟨before, htext⟩ | ⟨before, htext⟩)
    · exact ⟨before, v.toList, htext.symm, [], by simp, Or.inl rfl⟩
    · exact ⟨before, _, htext.symm, ['\n'], rfl, Or.inr rfl⟩

/-- A line break at the end of a text is overlooked. -/
theorem found_endWith_before_lineBreak :
    ∃ pattern, clause "$end" (.string "tom") = ("$regex", .string pattern) ∧
      Found pattern "tom\n" ∧ ¬ "tom".toList <:+ "tom\n".toList := by
  refine ⟨"tom$", rfl, ?_, by decide⟩
  have htokens : tokens? "tom$".toList =
      some [.char 't', .char 'o', .char 'm', .finish] := by decide
  refine (found_iff_of_tokens? htokens "tom\n").mpr ⟨[], "tom\n".toList, rfl, ?_⟩
  exact .char (.char (.char (.finish (Or.inr rfl) .nil)))

end DocumentApi.Pattern
