import FormulaSheet.Dependency.Keys

/-!
# Searching along links

Links lead from each cell to a set of cells; a cell without an entry leads nowhere. Two searches run
along them: one asks whether some cell of a set can be reached, the other puts the cells that can be
reached in order.

## Why the searches end

A search uses up the links it follows: the entry of a cell is taken away when the cell is first
opened, and what it led to is then waiting. So either the number of entries falls, or it stays and
less is waiting. No assumption on the links is needed; they may run in circles.

## The order

`finish` is a depth-first search. It keeps the path from the start to the cell being opened, each
cell of the path with those cells it leads to that have not been tried, and it puts a cell in front
of the finished ones when nothing it leads to is left to try. A cell thus comes before all cells
that it leads to, unless they run in a circle.

In which order the cells that one cell leads to are tried is left open: `arrange` may put them in
any order, which may be another one for each cell.
-/

namespace FormulaSheet

/-- Links from cells to sets of cells, by key. -/
abbrev Links := Std.ExtTreeMap String Keys

namespace Links

/-- The cells that a cell leads to. -/
def next (links : Links) (cell : String) : Keys := links.getD cell ∅

theorem size_erase_lt {links : Links} {cell : String} {keys : Keys} (h : links[cell]? = some keys) :
    (links.erase cell).size < links.size := by
  have hmem : cell ∈ links := by simp [Std.ExtTreeMap.mem_iff_isSome_getElem?, h]
  have hpos : links.size ≠ 0 := by
    rw [ne_eq, ← Std.ExtTreeMap.eq_empty_iff_size_eq_zero]
    rintro rfl
    simp at hmem
  rw [Std.ExtTreeMap.size_erase, if_pos (Std.ExtTreeMap.contains_iff_mem.2 hmem)]
  omega

/-! ## Reaching -/

/-- Whether one of the cells `waiting` leads, in one step or more, to one of the `targets`. -/
def reaches (targets : Keys) (links : Links) (waiting : List String) : Bool :=
  match waiting with
  | [] => false
  | cell :: waiting =>
    match _h : links[cell]? with
    | none => reaches targets links waiting
    | some keys =>
      keys.toList.any (targets.contains ·)
        || reaches targets (links.erase cell) (keys.toList ++ waiting)
termination_by (links.size, waiting.length)
decreasing_by
  · exact .right _ (by simp)
  · exact .left _ _ (size_erase_lt _h)

/-! ## Ordering -/

/-- Goes on with a search from the `path`, the cell opened last first. `opened` holds the cells that
have been opened, and `done` those of them that are finished, the latest first. -/
def finish (arrange : String → List String → List String) (links : Links) (opened : Keys)
    (done : List String) (path : List (String × List String)) : List String :=
  match path with
  | [] => done
  | (cell, []) :: path => finish arrange links opened (cell :: done) path
  | (cell, other :: untried) :: path =>
    if opened.contains other then finish arrange links opened done ((cell, untried) :: path)
    else
      match _h : links[other]? with
      | none =>
        finish arrange links (opened.insert other) (other :: done) ((cell, untried) :: path)
      | some keys =>
        finish arrange (links.erase other) (opened.insert other) done
          ((other, arrange other keys.toList) :: (cell, untried) :: path)
termination_by (links.size, (path.flatMap Prod.snd).length + path.length)
decreasing_by
  · exact .right _ (by simp)
  · exact .right _ (by simp)
  · exact .right _ (by simp)
  · exact .left _ _ (size_erase_lt _h)

/-- The cells that can be reached from `start` in one step or more, without `start` itself, each
before those it leads to. -/
def order (arrange : String → List String → List String) (links : Links) (start : String) :
    List String :=
  (finish arrange (links.erase start) {start} []
    [(start, arrange start (links.next start).toList)]).filter (· != start)

end Links

end FormulaSheet
