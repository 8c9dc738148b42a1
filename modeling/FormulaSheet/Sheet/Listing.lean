import FormulaSheet.Grid.Address

/-!
# The order of listings

Cells are listed by address, row by row, before all names that are no addresses, which follow by
name. Spellings of one address stand side by side, by their text.
-/

namespace FormulaSheet.Listing

/-- The order of two names in a listing. -/
def order (a b : String) : Ordering :=
  match Address.parse a, Address.parse b with
  | .ok x, .ok y => (compare x y).then (compare a b)
  | .ok _, .error _ => .lt
  | .error _, .ok _ => .gt
  | .error _, .error _ => compare a b

/-- The names in the order of listings, each as often as before. -/
def sort (names : List String) : List String := names.mergeSort fun a b ↦ (order a b).isLE

end FormulaSheet.Listing
