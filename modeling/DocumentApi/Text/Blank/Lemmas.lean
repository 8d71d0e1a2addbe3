import DocumentApi.Text.Blank
import Mathlib.Data.List.TakeWhile

/-!
Text with blanks around it. Stripping takes away blanks at both ends and nothing else
(`exists_around_strip`), and blanks at either end make no difference to it.
-/

set_option autoImplicit false

namespace DocumentApi.Text

def AllBlank (cs : List Char) : Prop := ∀ c ∈ cs, isBlank c

instance (cs : List Char) : Decidable (AllBlank cs) :=
  decidable_of_iff (cs.all isBlank = true) List.all_eq_true

section
variable {blanks : List Char} (h : AllBlank blanks)
include h

theorem AllBlank.stripStart_append (cs : List Char) : stripStart (blanks ++ cs) = stripStart cs :=
  List.dropWhile_append_of_pos h

theorem AllBlank.stripEnd_append (cs : List Char) : stripEnd (cs ++ blanks) = stripEnd cs := by
  rw [stripEnd, stripEnd, List.reverse_append, List.dropWhile_append_of_pos]
  intro c hc
  exact h c (List.mem_reverse.mp hc)

theorem AllBlank.strip_append_left (cs : List Char) : strip (blanks ++ cs) = strip cs := by
  rw [strip, strip, h.stripStart_append]

theorem AllBlank.strip_append_right (cs : List Char) : strip (cs ++ blanks) = strip cs := by
  rw [strip, strip, stripStart, List.dropWhile_append]
  split
  · -- Nothing but blanks at all: what is left of either text is empty.
    rename_i hnone
    have hcs : stripStart cs = [] := List.isEmpty_iff.mp hnone
    have hblanks : blanks.dropWhile isBlank = [] := List.dropWhile_eq_nil_iff.mpr h
    rw [hblanks, hcs]
  · exact h.stripEnd_append _

end

theorem exists_before_stripStart (cs : List Char) :
    ∃ before, AllBlank before ∧ cs = before ++ stripStart cs :=
  ⟨cs.takeWhile isBlank, fun _ hc => List.mem_takeWhile_imp hc,
    List.takeWhile_append_dropWhile.symm⟩

theorem strip_stripStart (cs : List Char) : strip (stripStart cs) = strip cs := by
  obtain ⟨before, hbefore, hsplit⟩ := exists_before_stripStart cs
  calc strip (stripStart cs) = strip (before ++ stripStart cs) :=
        (hbefore.strip_append_left _).symm
    _ = strip cs := by rw [← hsplit]

theorem exists_after_stripEnd (cs : List Char) :
    ∃ after, AllBlank after ∧ cs = stripEnd cs ++ after := by
  obtain ⟨before, hbefore, hsplit⟩ := exists_before_stripStart cs.reverse
  refine ⟨before.reverse, fun c hc => hbefore c (List.mem_reverse.mp hc), ?_⟩
  rw [stripEnd, ← List.reverse_append, ← stripStart, ← hsplit, List.reverse_reverse]

theorem exists_around_strip (cs : List Char) :
    ∃ before after, AllBlank before ∧ AllBlank after ∧ cs = before ++ strip cs ++ after := by
  obtain ⟨before, hbefore, hstart⟩ := exists_before_stripStart cs
  obtain ⟨after, hafter, hend⟩ := exists_after_stripEnd (stripStart cs)
  refine ⟨before, after, hbefore, hafter, ?_⟩
  rw [strip, List.append_assoc, ← hend, ← hstart]

theorem strip_strip (cs : List Char) : strip (strip cs) = strip cs := by
  obtain ⟨before, after, hbefore, hafter, hsplit⟩ := exists_around_strip cs
  calc strip (strip cs) = strip (before ++ strip cs) := (hbefore.strip_append_left _).symm
    _ = strip (before ++ strip cs ++ after) := (hafter.strip_append_right _).symm
    _ = strip cs := by rw [← hsplit]

end DocumentApi.Text
