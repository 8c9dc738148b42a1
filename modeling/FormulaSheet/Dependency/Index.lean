import FormulaSheet.Dependency.Search

/-!
# The dependency index

The precedents of a cell are the cells that its formula reads, its dependents the cells whose
formulas read it. The index keeps both, each the inverse of the other, and has no entry for a cell
without precedents or without dependents. It holds whatever it is given, cycles included; whoever
keeps one asks `wouldCycle` first.
-/

namespace FormulaSheet

/-- Which cell reads which, both ways. -/
structure DependencyIndex where
  /-- The cells that each cell reads. -/
  precedentLinks : Links
  /-- The cells by which each cell is read. -/
  dependentLinks : Links

namespace DependencyIndex

/-- No cell reads another. -/
def empty : DependencyIndex := ⟨∅, ∅⟩

/-- The cells that a cell reads. -/
def precedents (index : DependencyIndex) (cell : String) : Keys := index.precedentLinks.next cell

/-- The cells that read a cell. -/
def dependents (index : DependencyIndex) (cell : String) : Keys := index.dependentLinks.next cell

/-! ## Changing the index -/

/-- Adds `cell` to an entry, which is made if there is none. -/
def link (cell : String) (entry : Option Keys) : Option Keys := some ((entry.getD ∅).insert cell)

/-- Takes `cell` out of an entry, which goes when nothing is left in it. -/
def unlink (cell : String) : Option Keys → Option Keys
  | none => none
  | some keys =>
    let rest := keys.erase cell
    if rest.isEmpty then none else some rest

/-- Forgets what a cell reads. -/
def clear (index : DependencyIndex) (cell : String) : DependencyIndex :=
  match index.precedentLinks[cell]? with
  | none => index
  | some keys =>
    { precedentLinks := index.precedentLinks.erase cell
      dependentLinks := keys.foldl (fun links key ↦ links.alter key (unlink cell)) index.dependentLinks }

/-- Puts a set of cells in place of those that a cell reads. -/
def replace (index : DependencyIndex) (cell : String) (keys : Keys) : DependencyIndex :=
  let cleared := index.clear cell
  { precedentLinks :=
      if keys.isEmpty then cleared.precedentLinks else cleared.precedentLinks.insert cell keys
    dependentLinks := keys.foldl (fun links key ↦ links.alter key (link cell)) cleared.dependentLinks }

/-! ## Asking the index -/

/-- Whether a cycle would close if `cell` read the candidates: one of them is the cell itself, or
reads it, directly or through others. What the cell reads at present plays no part. -/
def wouldCycle (index : DependencyIndex) (cell : String) (candidates : Keys) : Bool :=
  candidates.contains cell || index.dependentLinks.reaches candidates [cell]

/-- The cells that read `cell`, directly or through others, in an order in which each stands after
those of its precedents that are among them. `arrange` settles what is left open. -/
def recalcOrderBy (index : DependencyIndex) (arrange : String → List String → List String)
    (cell : String) : List String :=
  index.dependentLinks.order arrange cell

/-- The order that results when the dependents of each cell are taken by increasing key. -/
def recalcOrder (index : DependencyIndex) (cell : String) : List String :=
  index.recalcOrderBy (fun _ keys ↦ keys) cell

end DependencyIndex

end FormulaSheet
