import FormulaSheet.Proofs.Dependency.Order

/-!
# The order with a stack

`finish` keeps the path of its search and with each cell of it what is left to try there. The usual
way to write the same search is a loop over one stack. A cell is on the stack once for each cell
that has put it there, and once more, marked, from the moment it is opened: when the mark comes up,
everything above it is done with, and the cell is finished. Two sets tell which cells have been
opened, one for those that are finished and one for the others.

Here the loop is a step on `Moment`s, and it is shown to come to an end with the cells that `finish`
lists, in the opposite order. Since the last cell pushed is the first to come up, a loop that pushes
the cells in some order is the search that tries them in the reverse one.

## How the stack stands for the path

Read from the top, the stack is the path with the untried cells of each cell in front of its mark,
and some cells may be missing: the loop does not push a cell that has been opened, and `finish`
passes over such a cell when its turn comes. This is `Stacked`. A cell that has been opened stays
opened, so a missing cell is passed over however late its turn comes.
-/

namespace FormulaSheet

open Relation

namespace Links

/-! ## The loop -/

/-- A moment of the loop. -/
structure Moment where
  /-- What is to be looked at, from the top down. A marked cell has been opened. -/
  stack : List (String × Bool)
  /-- The finished cells. -/
  visited : Keys
  /-- The cells that have been opened and not finished. -/
  inStack : Keys
  /-- The finished cells in the order in which they were finished. -/
  result : List String

namespace Moment

/-- Before the first step. -/
def start (cell : String) : Moment := ⟨[(cell, false)], ∅, ∅, []⟩

/-- Puts the cells that have not been opened on the stack, one after the other. -/
def pushAll (visited inStack : Keys) (stack : List (String × Bool)) (others : List String) :
    List (String × Bool) :=
  others.foldl (fun stack other ↦
    if !visited.contains other && !inStack.contains other then (other, false) :: stack else stack)
    stack

/-- Looks at what is on top of the stack. The cells that a cell leads to are gone through in the
order that `iterate` gives them. -/
def step (iterate : String → List String → List String) (links : Links) : Moment → Option Moment
  | ⟨[], _, _, _⟩ => none
  | ⟨(cell, true) :: stack, visited, inStack, result⟩ =>
    some ⟨stack, visited.insert cell, inStack.erase cell, result ++ [cell]⟩
  | ⟨(cell, false) :: stack, visited, inStack, result⟩ =>
    if visited.contains cell || inStack.contains cell then some ⟨stack, visited, inStack, result⟩
    else
      let inStack := inStack.insert cell
      some ⟨pushAll visited inStack ((cell, true) :: stack) (iterate cell (links.next cell).toList),
        visited, inStack, result⟩

/-- The loop comes from the first moment to the second. -/
def Runs (iterate : String → List String → List String) (links : Links) : Moment → Moment → Prop :=
  ReflTransGen fun m m' ↦ m.step iterate links = some m'

end Moment

/-! ## Stack and path -/

/-- The stack holds the path from the top down, the untried cells of each cell in front of its mark;
untried cells that have been opened may be missing. -/
inductive Stacked (opened : Keys) : List (String × List String) → List (String × Bool) → Prop
  /-- Nothing is left. -/
  | nil : Stacked opened [] []
  /-- All that the cell leads to has been tried. -/
  | mark {cell path stack} (hcell : cell ∈ opened) (h : Stacked opened path stack) :
      Stacked opened ((cell, []) :: path) ((cell, true) :: stack)
  /-- The next cell to try is on top. -/
  | waiting {cell other untried path stack} (h : Stacked opened ((cell, untried) :: path) stack) :
      Stacked opened ((cell, other :: untried) :: path) ((other, false) :: stack)
  /-- The next cell to try will be passed over. -/
  | missing {cell other untried path stack} (hother : other ∈ opened)
      (h : Stacked opened ((cell, untried) :: path) stack) :
      Stacked opened ((cell, other :: untried) :: path) stack

variable {iterate : String → List String → List String} {links full : Links}
  {visited inStack opened opened' : Keys} {stack : List (String × Bool)} {cell other : String}
  {untried done result : List String} {path : List (String × List String)} {m : Moment}

theorem Stacked.mono (h : Stacked opened path stack) (hopened : ∀ a, a ∈ opened → a ∈ opened') :
    Stacked opened' path stack := by
  induction h with
  | nil => exact .nil
  | mark hcell _ ih => exact .mark (hopened _ hcell) ih
  | waiting _ ih => exact .waiting ih
  | missing hother _ ih => exact .missing (hopened _ hother) ih

theorem Stacked.push (h : Stacked opened ((cell, []) :: path) stack) (untried : List String) :
    Stacked opened ((cell, untried) :: path)
      ((untried.filter (!opened.contains ·)).map (·, false) ++ stack) := by
  induction untried with
  | nil => exact h
  | cons other untried ih =>
    by_cases hother : opened.contains other = true
    · rw [List.filter_cons_of_neg (by simp [hother])]
      exact .missing (Std.ExtTreeSet.contains_iff_mem.mp hother) ih
    · rw [List.filter_cons_of_pos (by simp [hother])]
      exact .waiting ih

theorem Moment.pushAll_eq (hopened : ∀ a, a ∈ opened ↔ a ∈ visited ∨ a ∈ inStack)
    (stack : List (String × Bool)) (others : List String) :
    pushAll visited inStack stack others =
      (others.reverse.filter (!opened.contains ·)).map (·, false) ++ stack := by
  have hcontains : ∀ a, (!visited.contains a && !inStack.contains a) = !opened.contains a := by
    intro a
    rw [← Bool.not_or, Bool.not_inj_iff, Bool.eq_iff_iff]
    simp only [Bool.or_eq_true, Std.ExtTreeSet.contains_iff_mem, hopened]
  simp only [pushAll, hcontains]
  induction others generalizing stack with
  | nil => rfl
  | cons other others ih =>
    rw [List.foldl_cons, ih, List.reverse_cons, List.filter_append, List.map_append]
    by_cases hother : opened.contains other = true
    · simp [hother]
    · simp [hother]

/-! ## The loop and the search -/

/-- The loop is where the search is. -/
structure Follows (opened : Keys) (done : List String) (path : List (String × List String))
    (m : Moment) : Prop where
  /-- The opened cells are finished or not. -/
  mem_opened : ∀ a, a ∈ opened ↔ a ∈ m.visited ∨ a ∈ m.inStack
  /-- The same cells have been finished, in the same order. -/
  result_eq : m.result = done.reverse
  /-- The stack stands for the path. -/
  stacked : Stacked opened path m.stack

theorem Follows.finished (iterate : String → List String → List String) (full : Links)
    (h : Follows opened done ((cell, []) :: path) m) :
    ∃ m', m.step iterate full = some m' ∧ Follows opened (cell :: done) path m' := by
  obtain ⟨stack, visited, inStack, result⟩ := m
  obtain ⟨hopened, hresult, hstacked⟩ := h
  dsimp only at hopened hresult hstacked
  cases hstacked with
  | mark hcell hstacked =>
    refine ⟨_, rfl, fun a ↦ ?_, ?_, hstacked⟩
    · rw [hopened, Keys.mem_insert, Keys.mem_erase]
      by_cases ha : a = cell
      · rw [ha]
        exact iff_of_true ((hopened cell).mp hcell) (Or.inl (Or.inl rfl))
      · simp [ha]
    · rw [hresult, List.reverse_cons]

/-- A cell that has been opened is passed over, or it has not even been pushed. -/
theorem Follows.passed (iterate : String → List String → List String) (full : Links)
    (hother : other ∈ opened)
    (h : Follows opened done ((cell, other :: untried) :: path) m) :
    ∃ m', m.Runs iterate full m' ∧ Follows opened done ((cell, untried) :: path) m' := by
  obtain ⟨stack, visited, inStack, result⟩ := m
  obtain ⟨hopened, hresult, hstacked⟩ := h
  dsimp only at hopened hresult hstacked
  cases hstacked with
  | waiting hstacked =>
    refine ⟨_, .single (if_pos ?_), hopened, hresult, hstacked⟩
    simp only [Bool.or_eq_true, Std.ExtTreeSet.contains_iff_mem]
    exact (hopened other).mp hother
  | missing _ hstacked => exact ⟨_, .refl, hopened, hresult, hstacked⟩

theorem Follows.open (iterate : String → List String → List String) (full : Links)
    (hother : other ∉ opened)
    (h : Follows opened done ((cell, other :: untried) :: path) m) :
    ∃ m', m.step iterate full = some m' ∧
      Follows (opened.insert other) done
        ((other, (iterate other (full.next other).toList).reverse) :: (cell, untried) :: path)
        m' := by
  obtain ⟨stack, visited, inStack, result⟩ := m
  obtain ⟨hopened, hresult, hstacked⟩ := h
  dsimp only at hopened hresult hstacked
  cases hstacked with
  | missing hmem _ => exact absurd hmem hother
  | waiting hstacked =>
    have hopened' : ∀ a, a ∈ opened.insert other ↔ a ∈ visited ∨ a ∈ inStack.insert other := by
      intro a
      rw [Keys.mem_insert, Keys.mem_insert, hopened, or_left_comm]
    refine ⟨_, if_neg ?_, hopened', hresult, ?_⟩
    · simp only [Bool.or_eq_true, Std.ExtTreeSet.contains_iff_mem]
      exact fun hmem ↦ hother ((hopened other).mpr hmem)
    · dsimp only
      rw [Moment.pushAll_eq hopened']
      refine Stacked.push (.mark (Keys.mem_insert.mpr (Or.inl rfl)) ?_) _
      exact hstacked.mono fun a ha ↦ Keys.mem_insert.mpr (Or.inr ha)

/-- **The loop ends** where the search does. -/
theorem Follows.exists_last (hiterate : ∀ a keys, (iterate a keys).Perm keys)
    (hentry : ∀ a, links[a]? = if a ∈ opened then none else full[a]?)
    (h : Follows opened done path m) :
    ∃ last, m.Runs iterate full last ∧ last.stack = [] ∧ last.result.reverse =
      finish (fun a keys ↦ (iterate a keys).reverse) links opened done path := by
  fun_induction Links.finish (fun a keys ↦ (iterate a keys).reverse) links opened done path
    generalizing m with
  | case1 links opened done =>
    obtain ⟨stack, visited, inStack, result⟩ := m
    obtain ⟨-, hresult, hstacked⟩ := h
    cases hstacked
    exact ⟨_, .refl, rfl, by rw [hresult, List.reverse_reverse]⟩
  | case2 links opened done cell path ih =>
    obtain ⟨m', hstep, h'⟩ := h.finished iterate full
    obtain ⟨last, hlast, hend⟩ := ih hentry h'
    exact ⟨last, hlast.head hstep, hend⟩
  | case3 links opened done cell other untried path hopened ih =>
    obtain ⟨m', hsteps, h'⟩ := h.passed iterate full (Std.ExtTreeSet.contains_iff_mem.mp hopened)
    obtain ⟨last, hlast, hend⟩ := ih hentry h'
    exact ⟨last, hsteps.trans hlast, hend⟩
  | case4 links opened done cell other untried path hopened hnone ih =>
    rw [Std.ExtTreeSet.contains_iff_mem] at hopened
    obtain ⟨m', hstep, h'⟩ := h.open iterate full hopened
    -- the cell leads nowhere, so its mark is on top as soon as it is opened
    have hleaf : iterate other (full.next other).toList = [] := by
      have hnone' := hentry other
      rw [if_neg hopened, hnone] at hnone'
      rw [next_of_none hnone'.symm]
      exact List.perm_nil.mp (hiterate other [])
    rw [hleaf] at h'
    obtain ⟨m'', hstep', h''⟩ := h'.finished iterate full
    obtain ⟨last, hlast, hend⟩ := ih (entry_of_none hentry hnone) h''
    exact ⟨last, .head hstep (.head hstep' hlast), hend⟩
  | case5 links opened done cell other untried path hopened keys hsome ih =>
    rw [Std.ExtTreeSet.contains_iff_mem] at hopened
    obtain ⟨m', hstep, h'⟩ := h.open iterate full hopened
    have hsome' := hentry other
    rw [if_neg hopened, hsome] at hsome'
    rw [next_of_getElem? hsome'.symm] at h'
    obtain ⟨last, hlast, hend⟩ := ih (entry_erase hentry other) h'
    exact ⟨last, .head hstep hlast, hend⟩

/-- **The order with a stack.** The loop ends, and the cells that it has finished, the latest first
and without the start, are the order in which the cells that a cell leads to are tried in the
reverse of the order in which the loop goes through them. -/
theorem exists_last_start (full : Links) (start : String)
    (hiterate : ∀ a keys, (iterate a keys).Perm keys) :
    ∃ last, (Moment.start start).Runs iterate full last ∧ last.stack = [] ∧
      last.result.reverse.filter (· != start) =
        full.order (fun a keys ↦ (iterate a keys).reverse) start := by
  have hopened : ∀ a, a ∈ ({start} : Keys) ↔ a ∈ (∅ : Keys) ∨ a ∈ (∅ : Keys).insert start := by
    intro a
    rw [Keys.mem_singleton, Keys.mem_insert]
    simp
  have hentry : ∀ a, (full.erase start)[a]? = if a ∈ ({start} : Keys) then none else full[a]? := by
    intro a
    rw [getElem?_erase_key]
    simp only [Keys.mem_singleton]
  -- the first step opens the start, and there the search begins
  have hfollows : Follows {start} [] [(start, (iterate start (full.next start).toList).reverse)]
      ⟨Moment.pushAll ∅ ((∅ : Keys).insert start) [(start, true)]
        (iterate start (full.next start).toList), ∅, (∅ : Keys).insert start, []⟩ := by
    refine ⟨hopened, rfl, ?_⟩
    rw [Moment.pushAll_eq hopened]
    exact Stacked.push (.mark (Keys.mem_singleton.mpr rfl) .nil) _
  obtain ⟨last, hlast, hempty, hresult⟩ :=
    hfollows.exists_last hiterate hentry
  refine ⟨last, .head ?_ hlast, hempty, ?_⟩
  · simp [Moment.start, Moment.step]
  · rw [hresult, order]

end Links

end FormulaSheet
