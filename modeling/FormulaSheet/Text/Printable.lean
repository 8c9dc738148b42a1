import FormulaSheet.Text.PrintableTable

/-!
# Printable characters

A character is printable when it can be shown as itself inside quotes: it leaves a mark, and the
mark does not lean on the character before it.
-/

namespace FormulaSheet.Printable

/-- Whether one of a list of intervals holds a code. -/
def within (intervals : List (Nat × Nat)) (n : Nat) : Bool :=
  intervals.any fun i ↦ i.1 ≤ n && n ≤ i.2

theorem within_iff {intervals : List (Nat × Nat)} {n : Nat} :
    within intervals n = true ↔ ∃ i ∈ intervals, i.1 ≤ n ∧ n ≤ i.2 := by
  simp [within, List.any_eq_true]

end FormulaSheet.Printable

namespace FormulaSheet

open Printable in
/-- Whether a character can be shown as itself inside quotes. In ASCII these are the characters from
the blank to the tilde. -/
def isPrintable (c : Char) : Bool :=
  if c.toNat < 128 then ' ' ≤ c && c ≤ '~'
  else !within unmarked c.toNat && !within extending c.toNat

end FormulaSheet
