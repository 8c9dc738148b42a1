import FormulaSheet.Functions.Arithmetic
import FormulaSheet.Proofs.Formula.Wording

/-!
# Errors among the arguments of a function

The arithmetic functions look at what their arguments hold, arrays opened row by row. If an error is
there the first one is the result; if not, the result is a number or one of two errors of their own.
`gather_eq` says what is gathered from a row of arguments, and all that is said of the functions
follows from it.

## Two properties of a registry

What a sheet needs from its functions comes in two halves. A registry is *strict* when no function
swallows an error, and it is *honest* about a message when no function makes it up. The registry of
arithmetic is strict, and honest about the error of every refused cell.
-/

namespace FormulaSheet

namespace Value

/-! ## What a value holds -/

mutual

/-- What an array holds, row by row and at any depth; any other value holds itself. -/
def leaves : Value → List Value
  | .array rows => rowsLeaves rows
  | .number x => [.number x]
  | .text s => [.text s]
  | .error message => [.error message]
  | .empty => [.empty]

/-- What the values of a row hold. -/
def rowLeaves : List Value → List Value
  | [] => []
  | v :: row => v.leaves ++ rowLeaves row

/-- What the values of rows hold. -/
def rowsLeaves : List (List Value) → List Value
  | [] => []
  | row :: rows => rowLeaves row ++ rowsLeaves rows

end

variable {v w : Value} {row : List Value} {rows : List (List Value)}

theorem mem_rowLeaves : v ∈ rowLeaves row ↔ ∃ w ∈ row, v ∈ w.leaves := by
  induction row with
  | nil => simp [rowLeaves]
  | cons w row ih => simp [rowLeaves, ih]

theorem mem_rowsLeaves : v ∈ rowsLeaves rows ↔ ∃ row ∈ rows, ∃ w ∈ row, v ∈ w.leaves := by
  induction rows with
  | nil => simp [rowsLeaves]
  | cons row rows ih => simp [rowsLeaves, ih, mem_rowLeaves]

theorem leaves_of_not_isArray (h : v.isArray = false) : v.leaves = [v] := by
  cases v with
  | array => cases h
  | number | text | error | empty => rw [leaves]

theorem leaves_of_isError (h : v.isError = true) : v.leaves = [v] := by
  cases v with
  | error message => rw [leaves]
  | number | text | empty | array => cases h

end Value

namespace Arithmetic

open Value (rowLeaves rowsLeaves)

/-! ## What is gathered -/

/-- The numbers among values that are no arrays, behind those `found`, or the first error. -/
def gathered (found : List Float) (values : List Value) : Except Value (List Float) :=
  match values.find? Value.isError with
  | some e => .error e
  | none => .ok ((values.filterMap Value.number?).reverse ++ found)

theorem gathered_append (found : List Float) (values values' : List Value) :
    gathered found (values ++ values') =
      match gathered found values with
      | .ok found => gathered found values'
      | .error e => .error e := by
  simp only [gathered, List.find?_append]
  cases values.find? Value.isError with
  | some e => rfl
  | none =>
    rw [Option.none_or, List.filterMap_append, List.reverse_append, List.append_assoc]

mutual

/-- **What is gathered** from arguments is what they hold. -/
theorem gather_eq (found : List Float) :
    (row : List Value) → gather found row = gathered found (rowLeaves row)
  | [] => by rw [gather, rowLeaves]; rfl
  | .number x :: row => by
    rw [gather, rowLeaves, gathered_append, gather_eq (x :: found) row, Value.leaves]
    rfl
  | .text s :: row => by
    rw [gather, rowLeaves, gathered_append, gather_eq found row, Value.leaves]
    rfl
  | .empty :: row => by
    rw [gather, rowLeaves, gathered_append, gather_eq found row, Value.leaves]
    rfl
  | .error message :: row => by
    rw [gather, rowLeaves, gathered_append, Value.leaves]
    rfl
  | .array rows :: row => by
    rw [gather, rowLeaves, gathered_append, gatherRows_eq found rows, Value.leaves]
    cases gathered found (rowsLeaves rows) with
    | error e => rfl
    | ok found => exact gather_eq found row

theorem gatherRows_eq (found : List Float) :
    (rows : List (List Value)) → gatherRows found rows = gathered found (rowsLeaves rows)
  | [] => by rw [gatherRows, rowsLeaves]; rfl
  | row :: rows => by
    rw [gatherRows, rowsLeaves, gathered_append, gather_eq found row]
    cases gathered found (rowLeaves row) with
    | error e => rfl
    | ok found => exact gatherRows_eq found rows

end

theorem numbers_eq (args : List Value) :
    numbers args =
      match (rowLeaves args).find? Value.isError with
      | some e => .error e
      | none => .ok ((rowLeaves args).filterMap Value.number?) := by
  rw [numbers, gather_eq, gathered]
  cases (rowLeaves args).find? Value.isError with
  | some e => rfl
  | none => simp [Except.map]

/-- A function of numbers passes on the first error that its arguments hold. -/
theorem onNumbers_eq (f : List Float → Value) (args : List Value) :
    onNumbers f args =
      match (rowLeaves args).find? Value.isError with
      | some e => e
      | none => f ((rowLeaves args).filterMap Value.number?) := by
  rw [onNumbers, numbers_eq]
  cases (rowLeaves args).find? Value.isError with
  | some e => rfl
  | none => rfl

/-! ## Results of their own -/

/-- What the operations can come to when no argument holds an error. -/
inductive Own : Value → Prop
  /-- A number. -/
  | number (x : Float) : Own (.number x)
  /-- A function was given no number. -/
  | noNumber {function : String} (h : function = "MINUS" ∨ function = "DIVIDE") :
    Own (.fault (.missingNumber function))
  /-- A divisor is zero. -/
  | byZero : Own (.fault .divisionByZero)

/-- A function of numbers whose results are numbers and the two errors of arithmetic. -/
def IsOperation (f : Function) : Prop := ∃ g, f = onNumbers g ∧ ∀ xs, Own (g xs)

theorem own_divideBy (x : Float) (ys : List Float) : Own (divideBy x ys) := by
  induction ys generalizing x with
  | nil => exact .number x
  | cons y ys ih =>
    rw [divideBy]
    split
    · exact .byZero
    · exact ih (x / y)

theorem isOperation_add : IsOperation add := ⟨_, rfl, fun _ ↦ .number _⟩

theorem isOperation_times : IsOperation times := ⟨_, rfl, fun _ ↦ .number _⟩

theorem isOperation_minus : IsOperation minus := by
  refine ⟨_, rfl, fun xs ↦ ?_⟩
  cases xs with
  | nil => exact .noNumber (Or.inl rfl)
  | cons x xs => exact .number _

theorem isOperation_divide : IsOperation divide := by
  refine ⟨_, rfl, fun xs ↦ ?_⟩
  cases xs with
  | nil => exact .noNumber (Or.inr rfl)
  | cons x xs => exact own_divideBy x xs

variable {f : Function} {args : List Value}

theorem IsOperation.isError (hf : IsOperation f) {v : Value} (hv : v ∈ rowLeaves args)
    (herror : v.isError = true) : (f args).isError = true := by
  obtain ⟨g, rfl, -⟩ := hf
  rw [onNumbers_eq]
  cases hfind : (rowLeaves args).find? Value.isError with
  | some e => exact List.find?_some hfind
  | none => exact absurd herror (List.find?_eq_none.mp hfind v hv)

/-- What an operation comes to is an error that its arguments hold, or a result of its own. -/
theorem IsOperation.mem_or_own (hf : IsOperation f) (args : List Value) :
    f args ∈ rowLeaves args ∧ (f args).isError = true ∨ Own (f args) := by
  obtain ⟨g, rfl, hown⟩ := hf
  rw [onNumbers_eq]
  cases hfind : (rowLeaves args).find? Value.isError with
  | some e => exact Or.inl ⟨List.mem_of_find?_eq_some hfind, List.find?_some hfind⟩
  | none => exact Or.inr (hown _)

theorem Own.leaves_eq {v : Value} (h : Own v) : v.leaves = [v] := by
  cases h with
  | number | noNumber | byZero => exact Value.leaves_of_not_isArray rfl

theorem Own.not_circular {v : Value} (h : Own v) (cell : String) :
    v ≠ .fault (.circularReference cell) := by
  intro heq
  cases h with
  | number x => cases heq
  | noNumber h =>
    rcases h with rfl | rfl
    · exact ne_circular (by decide) cell (Value.error.inj heq)
    · exact ne_circular (by decide) cell (Value.error.inj heq)
  | byZero => exact ne_circular (by decide) cell (Value.error.inj heq)

end Arithmetic

namespace Registry

open Value (rowLeaves)

/-! ## Registries -/

/-- No function swallows an error. -/
def Strict (r : Registry) : Prop :=
  ∀ name f, r.get? name = some f → ∀ args, ∀ v ∈ rowLeaves args, v.isError = true →
    (f args).isError = true

/-- No function makes an error with this message up. -/
def Honest (r : Registry) (message : String) : Prop :=
  ∀ name f, r.get? name = some f → ∀ args, .error message ∈ (f args).leaves →
    .error message ∈ rowLeaves args

variable {r : Registry} {name name' : String} {f g : Function}

theorem get?_register (h : (r.register name f).get? name' = some g) :
    g = f ∨ r.get? name' = some g := by
  rw [get?, register, Std.ExtTreeMap.getElem?_insert] at h
  split at h
  · exact Or.inl (Option.some.inj h).symm
  · exact Or.inr h

theorem get?_foldl_register {filed : List (String × Function)}
    (h : (filed.foldl (fun r (name, f) ↦ r.register name f) r).get? name = some f) :
    (∃ p ∈ filed, f = p.2) ∨ r.get? name = some f := by
  induction filed generalizing r with
  | nil => exact Or.inr h
  | cons p filed ih =>
    rcases ih h with ⟨q, hq, hf⟩ | hr
    · exact Or.inl ⟨q, List.mem_cons_of_mem _ hq, hf⟩
    · exact (get?_register hr).imp (fun hf ↦ ⟨p, List.mem_cons_self, hf⟩) id

theorem isOperation_of_builtin (h : builtin.get? name = some f) : Arithmetic.IsOperation f := by
  rcases get?_foldl_register h with ⟨p, hp, rfl⟩ | hempty
  · revert p
    simp only [List.forall_mem_cons, List.not_mem_nil, false_imp_iff, implies_true, and_true,
      Arithmetic.isOperation_add, Arithmetic.isOperation_minus, Arithmetic.isOperation_times,
      Arithmetic.isOperation_divide]
  · rw [get?, empty, Std.ExtTreeMap.getElem?_empty] at hempty
    cases hempty

theorem builtin_strict : builtin.Strict := fun _ _ hf _ _ hv herror ↦
  (isOperation_of_builtin hf).isError hv herror

theorem builtin_honest (cell : String) :
    builtin.Honest (EvalFault.circularReference cell).message := by
  intro name f hf args hmem
  rcases (isOperation_of_builtin hf).mem_or_own args with ⟨harg, herror⟩ | hown
  · have hleaves : (f args).leaves = [f args] := by
      cases hv : f args with
      | error message => rw [Value.leaves]
      | number | text | empty | array => rw [hv] at herror; cases herror
    rw [hleaves, List.mem_singleton] at hmem
    rwa [hmem]
  · rw [hown.leaves_eq, List.mem_singleton] at hmem
    exact absurd hmem.symm (hown.not_circular cell)

end Registry

end FormulaSheet
