/-!
Cutting text at a separator character, or after a given start.
-/

set_option autoImplicit false

namespace DocumentApi.Text

/-- The parts between the separators, empty ones included; there is always at least one. -/
def pieces (separator : Char) : List Char → List (List Char)
  | [] => [[]]
  | c :: rest =>
    if c = separator then [] :: pieces separator rest
    else
      match pieces separator rest with
      | [] => [[c]]
      | first :: others => (c :: first) :: others

theorem pieces_ne_nil (separator : Char) (cs : List Char) : pieces separator cs ≠ [] := by
  cases cs with
  | nil => simp [pieces]
  | cons c rest =>
    by_cases h : c = separator
    · simp [pieces, h]
    · cases hp : pieces separator rest <;> simp [pieces, h, hp]

theorem pieces_eq_singleton {separator : Char} {cs : List Char} (h : separator ∉ cs) :
    pieces separator cs = [cs] := by
  induction cs with
  | nil => rfl
  | cons c rest ih =>
    have hc : c ≠ separator := fun he => h (he ▸ List.mem_cons_self)
    simp [pieces, hc, ih fun hm => h (List.mem_cons_of_mem c hm)]

theorem pieces_append_cons {separator : Char} {cs : List Char} (h : separator ∉ cs)
    (rest : List Char) :
    pieces separator (cs ++ separator :: rest) = cs :: pieces separator rest := by
  induction cs with
  | nil => simp [pieces]
  | cons c cs ih =>
    have hc : c ≠ separator := fun he => h (he ▸ List.mem_cons_self)
    simp [pieces, hc, ih fun hm => h (List.mem_cons_of_mem c hm)]

/-- Parts without the separator are cut apart again where they were joined. -/
theorem pieces_intercalate {separator : Char} {parts : List (List Char)} (hne : parts ≠ [])
    (h : ∀ part ∈ parts, separator ∉ part) :
    pieces separator (List.intercalate [separator] parts) = parts := by
  induction parts with
  | nil => exact absurd rfl hne
  | cons part rest ih =>
    have hpart := h part List.mem_cons_self
    cases rest with
    | nil => simpa [List.intercalate] using pieces_eq_singleton hpart
    | cons next others =>
      have hrest := ih (List.cons_ne_nil next others) fun q hq => h q (List.mem_cons_of_mem part hq)
      have hjoin : List.intercalate [separator] (part :: next :: others) =
          part ++ separator :: List.intercalate [separator] (next :: others) := by
        simp [List.intercalate]
      rw [hjoin, pieces_append_cons hpart, hrest]

/-- The text before the first separator, and the text after it if there is one. -/
def cut (separator : Char) : List Char → List Char × Option (List Char)
  | [] => ([], none)
  | c :: rest =>
    if c = separator then ([], some rest)
    else (c :: (cut separator rest).1, (cut separator rest).2)

theorem cut_eq_self {separator : Char} {cs : List Char} (h : separator ∉ cs) :
    cut separator cs = (cs, none) := by
  induction cs with
  | nil => rfl
  | cons c rest ih =>
    have hc : c ≠ separator := fun he => h (he ▸ List.mem_cons_self)
    simp [cut, hc, ih fun hm => h (List.mem_cons_of_mem c hm)]

theorem cut_append_cons {separator : Char} {cs : List Char} (h : separator ∉ cs)
    (rest : List Char) : cut separator (cs ++ separator :: rest) = (cs, some rest) := by
  induction cs with
  | nil => simp [cut]
  | cons c cs ih =>
    have hc : c ≠ separator := fun he => h (he ▸ List.mem_cons_self)
    simp [cut, hc, ih fun hm => h (List.mem_cons_of_mem c hm)]

theorem not_mem_cut_fst (separator : Char) (cs : List Char) : separator ∉ (cut separator cs).1 := by
  induction cs with
  | nil => exact List.not_mem_nil
  | cons c rest ih =>
    by_cases h : c = separator
    · simp [cut, h]
    · simpa [cut, h, Ne.symm h] using ih

theorem cut_fst_sublist (separator : Char) (cs : List Char) : (cut separator cs).1.Sublist cs := by
  induction cs with
  | nil => exact List.Sublist.refl []
  | cons c rest ih =>
    by_cases h : c = separator
    · simp [cut, h]
    · simpa [cut, h] using ih

theorem mem_of_mem_cut_fst {separator c : Char} {cs : List Char} (h : c ∈ (cut separator cs).1) :
    c ∈ cs :=
  (cut_fst_sublist separator cs).subset h

theorem mem_of_mem_cut_snd {separator c : Char} {cs rest : List Char}
    (hcut : (cut separator cs).2 = some rest) (h : c ∈ rest) : c ∈ cs := by
  induction cs with
  | nil => cases hcut
  | cons d others ih =>
    by_cases hd : d = separator
    · simp only [cut, hd, if_true, Option.some.injEq] at hcut
      exact List.mem_cons_of_mem d (hcut ▸ h)
    · simp only [cut, hd, if_false] at hcut
      exact List.mem_cons_of_mem d (ih hcut)

def dropStart? {α : Type} [BEq α] (start as : List α) : Option (List α) :=
  if start.isPrefixOf as then some (as.drop start.length) else none

end DocumentApi.Text
