import FormulaSheet.Formula.Value
import FormulaSheet.Report.Outline
import FormulaSheet.Text.Upper

/-!
# Functions by name

A function takes the values of all its arguments and comes to a value; there is no declared number
or kind of arguments. Functions are filed under their names in capitals, and looked up by names in
any case.
-/

namespace FormulaSheet

/-- What a function does with its arguments. -/
abbrev Function := List Value → Value

/-- Functions by their names in capitals. -/
structure Registry where
  /-- The functions. -/
  functions : Std.ExtTreeMap String Function

namespace Registry

/-- No function. -/
def empty : Registry := ⟨∅⟩

/-- The function with a name, in any case. -/
def get? (r : Registry) (name : String) : Option Function := r.functions[upper name]?

/-- Files a function, in place of any other with the same name. -/
def register (r : Registry) (name : String) (f : Function) : Registry :=
  ⟨r.functions.insert (upper name) f⟩

/-- Files the function known as `target` under another name too, if there is one. -/
def alias? (r : Registry) (name target : String) : Option Registry :=
  (r.get? target).map fun f ↦ r.register name f

/-- The names in increasing order. -/
def names (r : Registry) : List String := r.functions.keys

theorem get?_register_self (r : Registry) (name : String) (f : Function) :
    (r.register name f).get? name = some f := by
  simp [register, get?]

/-- The registry as it is shown to a reader. -/
def outline (r : Registry) : Outline :=
  .record "FunctionRegistry" [("functions", .list (r.names.map fun name ↦ .leaf (Literal.quote name)))]

end Registry

end FormulaSheet
