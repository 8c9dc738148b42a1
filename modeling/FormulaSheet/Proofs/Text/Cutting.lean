import Mathlib.Data.List.TakeWhile

/-!
# Cutting where a property ends

Words, names and quoted texts are found by cutting a text in front of the first character that has
not a certain property. Two parts that are put side by side are cut apart again, if all of the first
has the property and the head of the second has not; and every cut is of this kind.
-/

namespace FormulaSheet

variable {α : Type*} {p : α → Bool} {as bs : List α}

theorem takeWhile_append_eq (has : ∀ a ∈ as, p a = true) (hbs : ∀ b ∈ bs.head?, p b = false) :
    (as ++ bs).takeWhile p = as := by
  rw [List.takeWhile_append_of_pos has]
  cases bs with
  | nil => rw [List.takeWhile_nil, List.append_nil]
  | cons b bs => rw [List.takeWhile_cons_of_neg (by simp [hbs b rfl]), List.append_nil]

theorem dropWhile_append_eq (has : ∀ a ∈ as, p a = true) (hbs : ∀ b ∈ bs.head?, p b = false) :
    (as ++ bs).dropWhile p = bs := by
  rw [List.dropWhile_append_of_pos has]
  cases bs with
  | nil => rw [List.dropWhile_nil]
  | cons b bs => rw [List.dropWhile_cons_of_neg (by simp [hbs b rfl])]

theorem eq_false_of_mem_head?_dropWhile {a : α} (ha : a ∈ (as.dropWhile p).head?) :
    p a = false := by
  have hhead := List.head?_dropWhile_not p as
  rw [Option.mem_def.mp ha] at hhead
  exact hhead

end FormulaSheet
