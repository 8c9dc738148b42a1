import FormulaSheet.Proofs.Text.Cutting
import FormulaSheet.Text.Blank
import Mathlib.Data.List.Basic

/-!
# Texts freed of the blanks at their ends

What is left by trimming neither begins nor ends with a blank. Put between blanks again, it is left
again; and every text is of this kind.
-/

namespace FormulaSheet

variable {cs lead trail : List Char}

theorem trimBlanks_of_forall (h : ∀ c ∈ cs, isBlank c = true) : trimBlanks cs = [] := by
  rw [trimBlanks, List.dropWhile_eq_nil_iff.mpr h]
  rfl

theorem trimBlanks_append_left (hlead : ∀ c ∈ lead, isBlank c = true) :
    trimBlanks (lead ++ cs) = trimBlanks cs := by
  rw [trimBlanks, List.dropWhile_append_of_pos hlead, ← trimBlanks]

theorem trimBlanks_cons {c : Char} (hc : isBlank c = false) :
    trimBlanks (c :: cs) = c :: (cs.reverse.dropWhile isBlank).reverse := by
  have hnot : ¬isBlank c = true := Bool.eq_false_iff.mp hc
  rw [trimBlanks, List.dropWhile_cons_of_neg hnot, List.reverse_cons, List.dropWhile_append,
    List.dropWhile_cons_of_neg hnot]
  split
  next hempty => rw [List.isEmpty_iff.mp hempty, List.reverse_singleton, List.reverse_nil]
  next => rw [List.reverse_append, List.reverse_singleton, List.singleton_append]

/-- What is left between blanks, if it neither begins nor ends with one. -/
theorem trimBlanks_append (hlead : ∀ c ∈ lead, isBlank c = true)
    (htrail : ∀ c ∈ trail, isBlank c = true) (hfirst : ∀ c ∈ cs.head?, isBlank c = false)
    (hlast : ∀ c ∈ cs.getLast?, isBlank c = false) : trimBlanks (lead ++ (cs ++ trail)) = cs := by
  rw [trimBlanks_append_left hlead]
  cases cs with
  | nil => exact trimBlanks_of_forall htrail
  | cons c cs =>
    have hback : ∀ d ∈ (c :: cs).reverse.head?, isBlank d = false := by
      rwa [List.head?_reverse]
    have hbehind : ∀ d ∈ trail.reverse, isBlank d = true := fun d hd ↦
      htrail d (List.mem_reverse.mp hd)
    have hnot : ¬isBlank c = true := Bool.eq_false_iff.mp (hfirst c rfl)
    rw [trimBlanks, List.cons_append, List.dropWhile_cons_of_neg hnot, ← List.cons_append,
      List.reverse_append, dropWhile_append_eq hbehind hback, List.reverse_reverse]

/-- A text is what is left of it between blanks. -/
theorem exists_eq_trimBlanks (cs : List Char) :
    ∃ lead trail, cs = lead ++ (trimBlanks cs ++ trail) ∧ (∀ c ∈ lead, isBlank c = true) ∧
      (∀ c ∈ trail, isBlank c = true) ∧ (∀ c ∈ (trimBlanks cs).head?, isBlank c = false) ∧
      ∀ c ∈ (trimBlanks cs).getLast?, isBlank c = false := by
  have hback : cs.dropWhile isBlank
      = trimBlanks cs ++ ((cs.dropWhile isBlank).reverse.takeWhile isBlank).reverse := by
    rw [trimBlanks, ← List.reverse_append, List.takeWhile_append_dropWhile, List.reverse_reverse]
  refine ⟨cs.takeWhile isBlank, ((cs.dropWhile isBlank).reverse.takeWhile isBlank).reverse,
    ?_, ?_, ?_, fun c hc ↦ ?_, fun c hc ↦ ?_⟩
  · rw [← hback, List.takeWhile_append_dropWhile]
  · exact List.all_eq_true.mp List.all_takeWhile
  · intro c hc
    exact List.all_eq_true.mp List.all_takeWhile c (List.mem_reverse.mp hc)
  · have hhead : c ∈ (cs.dropWhile isBlank).head? := by
      rw [hback, List.head?_append, Option.mem_def.mp hc]
      rfl
    exact eq_false_of_mem_head?_dropWhile hhead
  · rw [trimBlanks, List.getLast?_reverse] at hc
    exact eq_false_of_mem_head?_dropWhile hc

end FormulaSheet
