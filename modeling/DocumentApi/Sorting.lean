/-!
Sorting by a key. Elements with equal keys keep their order, which leaves one sorted list only:
`eq_of_pairwise_of_filter_key`. What a search finds first in a sorted list is the first of those with
the least key: `findSome?_sortBy`.
-/

set_option autoImplicit false

namespace DocumentApi

universe u v w

variable {α : Type u} {κ : Type v}

/-- Inserts before the first element whose key is not smaller. -/
def insertBy (le : κ → κ → Bool) (key : α → κ) (a : α) : List α → List α
  | [] => [a]
  | b :: rest => if le (key a) (key b) then a :: b :: rest else b :: insertBy le key a rest

def sortBy (le : κ → κ → Bool) (key : α → κ) : List α → List α
  | [] => []
  | a :: rest => insertBy le key a (sortBy le key rest)

theorem insertBy_perm (le : κ → κ → Bool) (key : α → κ) (a : α) (as : List α) :
    (insertBy le key a as).Perm (a :: as) := by
  induction as with
  | nil => exact List.Perm.refl _
  | cons b rest ih =>
    simp only [insertBy]
    split
    · exact List.Perm.refl _
    · exact (ih.cons b).trans (List.Perm.swap a b rest)

theorem sortBy_perm (le : κ → κ → Bool) (key : α → κ) (as : List α) :
    (sortBy le key as).Perm as := by
  induction as with
  | nil => exact List.Perm.refl _
  | cons a rest ih => exact (insertBy_perm le key a _).trans (ih.cons a)

/-- Inserting keeps the elements of each class in order, the new one in front of its own. -/
theorem filter_insertBy {le : κ → κ → Bool} {key : α → κ} {p : α → Bool} {a : α} {as : List α}
    (h : ∀ b ∈ as, p a → p b → le (key a) (key b)) :
    (insertBy le key a as).filter p = if p a then a :: as.filter p else as.filter p := by
  induction as with
  | nil => by_cases ha : p a <;> simp [insertBy, ha]
  | cons b rest ih =>
    have hr := ih fun c hc => h c (List.mem_cons_of_mem b hc)
    simp only [insertBy]
    split
    · by_cases ha : p a <;> simp [List.filter_cons, ha]
    · rename_i hle
      by_cases ha : p a
      · by_cases hb : p b
        · exact absurd (h b List.mem_cons_self ha hb) hle
        · simp [ha, hb, hr]
      · by_cases hb : p b <;> simp [ha, hb, hr]

/-- Sorting keeps the order of the elements of a class on which the keys are all alike. -/
theorem filter_sortBy {le : κ → κ → Bool} {key : α → κ} {p : α → Bool} {as : List α}
    (h : ∀ a ∈ as, ∀ b ∈ as, p a → p b → le (key a) (key b)) :
    (sortBy le key as).filter p = as.filter p := by
  induction as with
  | nil => rfl
  | cons a rest ih =>
    have hr := ih fun b hb c hc => h b (List.mem_cons_of_mem a hb) c (List.mem_cons_of_mem a hc)
    have hi : ∀ b ∈ sortBy le key rest, p a → p b → le (key a) (key b) := fun b hb =>
      h a List.mem_cons_self b (List.mem_cons_of_mem a ((sortBy_perm le key rest).mem_iff.mp hb))
    rw [sortBy, filter_insertBy hi, hr, List.filter_cons]

/-- A sorted list is left as it is. -/
theorem sortBy_eq_self {le : κ → κ → Bool} {key : α → κ} {as : List α}
    (h : as.Pairwise fun a b => le (key a) (key b)) : sortBy le key as = as := by
  induction h with
  | nil => rfl
  | @cons a rest ha _ ih =>
    rw [sortBy, ih]
    cases rest with
    | nil => rfl
    | cons b others => rw [insertBy, if_pos (ha b List.mem_cons_self)]

theorem pairwise_zipIdx (as : List α) (first : Nat) :
    (as.zipIdx first).Pairwise fun a b => a.2 < b.2 := by
  have hsorted := List.pairwise_lt_range' (s := first) (n := as.length)
  rw [← List.zipIdx_map_snd, List.pairwise_map] at hsorted
  exact hsorted

section Order
variable {le : κ → κ → Bool} {key : α → κ}

theorem pairwise_insertBy (total : ∀ i j, le i j ∨ le j i)
    (trans : ∀ {i j k}, le i j → le j k → le i k) {a : α} {as : List α}
    (h : as.Pairwise fun b c => le (key b) (key c)) :
    (insertBy le key a as).Pairwise fun b c => le (key b) (key c) := by
  induction h with
  | nil => exact List.pairwise_singleton _ _
  | @cons b rest hb hrest ih =>
    rw [insertBy]
    split
    · rename_i hab
      refine List.Pairwise.cons (fun c hc => ?_) (List.Pairwise.cons hb hrest)
      rcases List.mem_cons.mp hc with rfl | hc
      · exact hab
      · exact trans hab (hb c hc)
    · rename_i hab
      refine List.Pairwise.cons (fun c hc => ?_) ih
      rcases List.mem_cons.mp ((insertBy_perm le key a rest).mem_iff.mp hc) with rfl | hc
      · exact (total (key c) (key b)).resolve_left hab
      · exact hb c hc

variable (le key) in
theorem pairwise_sortBy (total : ∀ i j, le i j ∨ le j i)
    (trans : ∀ {i j k}, le i j → le j k → le i k) (as : List α) :
    (sortBy le key as).Pairwise fun b c => le (key b) (key c) := by
  induction as with
  | nil => exact List.Pairwise.nil
  | cons a rest ih => exact pairwise_insertBy total trans ih

/-- The first element of a sorted list that has a result is one with the least key of those that
have, and of these the first in the list as it was. -/
theorem findSome?_sortBy {β : Type w} [DecidableEq κ] (total : ∀ i j, le i j ∨ le j i)
    (trans : ∀ {i j k}, le i j → le j k → le i k) {f : α → Option β} {as : List α} {b : β}
    (h : (sortBy le key as).findSome? f = some b) :
    ∃ before a after, as = before ++ a :: after ∧ f a = some b ∧
      (∀ c ∈ as, f c ≠ none → le (key a) (key c)) ∧ ∀ c ∈ before, key c = key a → f c = none := by
  obtain ⟨skipped, a, others, hsorted, hfound, hskipped⟩ := List.findSome?_eq_some_iff.mp h
  have hpairwise := pairwise_sortBy le key total trans as
  rw [hsorted] at hpairwise
  have hrefl : ∀ i, le i i := fun i => (total i i).elim id id
  have hleast : ∀ c ∈ as, f c ≠ none → le (key a) (key c) := by
    intro c hc hresult
    rw [← (sortBy_perm le key as).mem_iff, hsorted, List.mem_append, List.mem_cons] at hc
    rcases hc with hc | rfl | hc
    · exact absurd (hskipped c hc) hresult
    · exact hrefl _
    · exact (List.pairwise_cons.mp (List.pairwise_append.mp hpairwise).2.1).1 c hc
  -- Sorting keeps the order of the elements that have a result and this key.
  have hclass : as.filter (fun c => decide (key c = key a) && (f c).isSome) =
      a :: others.filter fun c => decide (key c = key a) && (f c).isSome := by
    have halike : ∀ c ∈ as, ∀ d ∈ as, decide (key c = key a) && (f c).isSome →
        decide (key d = key a) && (f d).isSome → le (key c) (key d) := by
      intro c _ d _ hc hd
      simp only [Bool.and_eq_true, decide_eq_true_eq] at hc hd
      rw [hc.1, hd.1]
      exact hrefl _
    rw [← filter_sortBy halike, hsorted, List.filter_append]
    have hnone : skipped.filter (fun c => decide (key c = key a) && (f c).isSome) = [] := by
      rw [List.filter_eq_nil_iff]
      intro c hc
      simp [hskipped c hc]
    rw [hnone, List.nil_append, List.filter_cons_of_pos (by simp [hfound])]
  obtain ⟨before, after, has, hbefore, -, -⟩ := List.filter_eq_cons_iff.mp hclass
  refine ⟨before, a, after, has, hfound, hleast, ?_⟩
  intro c hc hkey
  have hout := hbefore c hc
  simpa [hkey] using hout

variable [DecidableEq κ] {as bs : List α}

theorem mem_iff_of_filter_key
    (h : ∀ k, as.filter (fun a => key a = k) = bs.filter fun a => key a = k) (a : α) :
    a ∈ as ↔ a ∈ bs := by
  have hclass : a ∈ as.filter (fun b => key b = key a) ↔ a ∈ bs.filter fun b => key b = key a := by
    rw [h (key a)]
  simpa using hclass

variable (le key) in
/-- A sorted list is made up by its classes of equal keys, each in its order. -/
theorem eq_of_pairwise_of_filter_key (antisymm : ∀ {i j}, le i j → le j i → i = j)
    (ha : as.Pairwise fun a b => le (key a) (key b)) (hb : bs.Pairwise fun a b => le (key a) (key b))
    (h : ∀ k, as.filter (fun a => key a = k) = bs.filter fun a => key a = k) : as = bs := by
  have hmem := mem_iff_of_filter_key h
  induction ha generalizing bs with
  | nil =>
    refine (List.eq_nil_iff_forall_not_mem.mpr fun b hb => ?_).symm
    exact List.not_mem_nil ((hmem b).mpr hb)
  | @cons a rest harest _ ih =>
    cases hb with
    | nil => exact absurd ((hmem a).mp List.mem_cons_self) List.not_mem_nil
    | @cons b others hbothers hothers =>
      -- Both heads have the least key, so they lead the same class.
      have hkey : key a = key b := by
        rcases List.mem_cons.mp ((hmem a).mp List.mem_cons_self) with hab | hin
        · rw [hab]
        · rcases List.mem_cons.mp ((hmem b).mpr List.mem_cons_self) with hba | hin'
          · rw [hba]
          · exact antisymm (harest b hin') (hbothers a hin)
      have hhead : a = b := by
        have hclass := h (key a)
        simp only [List.filter_cons, hkey, decide_true, if_true] at hclass
        exact (List.cons.inj hclass).1
      subst hhead
      have hrest : ∀ k, rest.filter (fun c => key c = k) = others.filter fun c => key c = k := by
        intro k
        have hclass := h k
        simp only [List.filter_cons] at hclass
        split at hclass
        · exact (List.cons.inj hclass).2
        · exact hclass
      rw [ih hothers hrest (mem_iff_of_filter_key hrest)]

end Order

end DocumentApi
