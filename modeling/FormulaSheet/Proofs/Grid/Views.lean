import FormulaSheet.Proofs.Grid.Walk

/-!
# Walking step by step

A cursor can be stopped anywhere. `Cursor.advance` is the place after so many steps, where a step
that yields nothing leaves the cursor as it is, and the invariant `Cursor.OnRange` holds at each of
them. What is ahead after `n` steps is what was ahead before, without the first `n` cells; so the
count, which a cursor takes from its place alone, falls by one with each cell and is zero when there
is none left.

## The largest corners

A place has 64 bits for its row and its column, and corners have 32. One step past the last row of
the grid is therefore a place like any other, and the walk over a range that ends there ends.
-/

namespace FormulaSheet

namespace Range

variable {r : Range}

namespace Cursor

/-- The cursor after so many steps. -/
def advance (c : Cursor) : Nat → Cursor
  | 0 => c
  | n + 1 =>
    match c.next with
    | none => c
    | some (_, after) => after.advance n

variable {c after : Cursor} {a : Address} {n : Nat}

theorem advance_of_next_none (h : c.next = none) (n : Nat) : c.advance n = c := by
  cases n with
  | zero => rfl
  | succ n => rw [advance, h]

theorem advance_of_next_some (h : c.next = some (a, after)) (n : Nat) :
    c.advance (n + 1) = after.advance n := by
  rw [advance, h]

/-! ## Any number of steps -/

theorem OnRange.map_next (h : c.OnRange) : c.next.map Prod.fst = c.ahead.head? := by
  cases hnext : c.next with
  | none =>
    rw [ahead_of_next_none hnext]
    rfl
  | some step =>
    rw [(h.ahead_of_next_some hnext).1]
    rfl

theorem OnRange.next_eq_none_iff (h : c.OnRange) : c.next = none ↔ c.ahead = [] := by
  rw [← List.head?_eq_none_iff, ← h.map_next, Option.map_eq_none_iff]

/-- **Any number of steps** leads to a place on the range, and leaves out as many of the cells that
were ahead. -/
theorem OnRange.advance (h : c.OnRange) (n : Nat) :
    (c.advance n).OnRange ∧ (c.advance n).range = c.range ∧
      (c.advance n).ahead = c.ahead.drop n := by
  induction n generalizing c with
  | zero => exact ⟨h, rfl, rfl⟩
  | succ n ih =>
    cases hnext : c.next with
    | none =>
      rw [advance_of_next_none hnext, ahead_of_next_none hnext, List.drop_nil]
      exact ⟨h, rfl, rfl⟩
    | some step =>
      obtain ⟨hahead, hafter, hrange⟩ := h.ahead_of_next_some hnext
      obtain ⟨hon, hsame, hdrop⟩ := ih hafter
      rw [advance_of_next_some hnext, hahead, List.drop_succ_cons]
      exact ⟨hon, hsame.trans hrange, hdrop⟩

end Cursor

/-! ## The views of a range -/

theorem Ordered.ahead_advance (h : r.Ordered) (n : Nat) :
    (r.cursor.advance n).ahead = r.cells.drop n := by
  rw [((Cursor.onRange_cursor h).advance n).2.2, Cursor.ahead_cursor h, h.cells_eq]

theorem Countable.toNat_remaining_advance (h : r.Countable) (n : Nat) :
    (r.cursor.advance n).remaining.toNat = (r.cells.drop n).length := by
  obtain ⟨hon, hrange, -⟩ := (Cursor.onRange_cursor h.ordered).advance n
  have hcountable : (r.cursor.advance n).range.Countable := by
    rw [hrange]
    exact h
  rw [hon.toNat_remaining hcountable, h.ordered.ahead_advance]

/-- **All views of a range agree.** Take corners that make a range, with fewer than `2 ^ 64` cells.
Its cursor yields its rows, one behind the other, in the order of addresses and without repetition;
these are the cells that the range contains, and there are as many as it counts. After any number of
steps the cursor yields the cell that is next in this list, and it counts those that are to come,
which are none when and only when it yields none. -/
theorem views_agree (first last : Address) (r : Range) (hr : ofCorners first last = .ok r)
    (harea : r.height * r.width < UInt64.size) :
    r.cells = r.rows.flatten ∧
    r.cells.Pairwise (fun a b ↦ compare a b = .lt) ∧
    (∀ a, a ∈ r.cells ↔ r.contains a = true) ∧
    r.cells.length = r.cellCount.toNat ∧
    r.cellCount.toNat = r.height * r.width ∧
    ∀ n,
      (r.cursor.advance n).next.map Prod.fst = r.cells[n]? ∧
      (r.cursor.advance n).remaining.toNat = (r.cells.drop n).length ∧
      ((r.cursor.advance n).remaining = 0 ↔ (r.cursor.advance n).next = none) := by
  have hordered : r.Ordered := (ofCorners_eq_ok_iff.mp hr).2
  have h : r.Countable := ⟨hordered, harea⟩
  have hcells : r.cells = r.rows.flatten := hordered.cells_eq
  refine ⟨hcells, hcells ▸ pairwise_rows r, fun a ↦ hcells ▸ mem_rows_iff, ?_,
    h.toNat_cellCount, fun n ↦ ?_⟩
  · rw [h.toNat_cellCount, hcells, length_rows]
  · obtain ⟨hon, -, -⟩ := (Cursor.onRange_cursor hordered).advance n
    have hahead := hordered.ahead_advance n
    have hremaining := h.toNat_remaining_advance n
    refine ⟨?_, hremaining, ?_⟩
    · rw [hon.map_next, hahead, List.head?_drop]
    · rw [hon.next_eq_none_iff, hahead, ← List.length_eq_zero_iff, ← hremaining,
        ← UInt64.toNat_inj]
      rfl

/-- The last two cells of the grid, one above the other: after the second step nothing is left,
although there is no row below. -/
theorem views_agree_corner :
    let first : Address := ⟨4294967295, 4294967294⟩
    let last : Address := ⟨4294967295, 4294967295⟩
    let r : Range := ⟨first, last⟩
    ofCorners first last = .ok r ∧ r.height * r.width < UInt64.size ∧
      r.cells = [first, last] ∧ (r.cursor.advance 1).remaining.toNat = 1 ∧
      (r.cursor.advance 2).next = none ∧ (r.cursor.advance 2).remaining = 0 := by
  intro first last r
  have hr : ofCorners first last = .ok r := ofCorners_eq_ok_iff.mpr ⟨rfl, by decide⟩
  have harea : r.height * r.width < UInt64.size := by decide
  obtain ⟨hcells, -, -, -, -, hsteps⟩ := views_agree first last r hr harea
  have hrows : r.rows.flatten = [first, last] := by decide
  rw [hrows] at hcells
  obtain ⟨-, hone, -⟩ := hsteps 1
  obtain ⟨hnone, -, hzero⟩ := hsteps 2
  rw [hcells] at hone hnone
  have hend : (r.cursor.advance 2).next = none := Option.map_eq_none_iff.mp hnone
  exact ⟨hr, harea, hcells, hone, hend, hzero.mpr hend⟩

end Range

end FormulaSheet
