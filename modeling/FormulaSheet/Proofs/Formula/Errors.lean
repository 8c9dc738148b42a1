import FormulaSheet.Proofs.Functions.Errors

/-!
# Errors of the cells that a formula reads

Two facts about evaluation, each the converse of the other. With strict functions an error in a cell
that a formula mentions makes the formula come to an error, which need not be the same one. With
honest functions the error of a refused cell cannot come from anywhere else than a cell that the
formula mentions.

Both are said of what a value holds, for an array is no error itself and may hold one.
-/

namespace FormulaSheet

open Value (rowLeaves rowsLeaves mem_rowLeaves mem_rowsLeaves)

variable {cell : String} {values : Values} {functions : Registry} {a : Address} {v : Value}

namespace Context

theorem mem_leaves_rangeValue {ctx : Context} {r : Range} (h : ctx.isCovered r = false) :
    v ∈ (ctx.rangeValue r).leaves ↔ ∃ a ∈ r.rows.flatten, v ∈ (ctx.values.get a.key).leaves := by
  rw [rangeValue, h, if_neg Bool.false_ne_true, Value.leaves, mem_rowsLeaves]
  constructor
  · rintro ⟨_, hvalues, _, hvalue, hv⟩
    obtain ⟨row, hrow, rfl⟩ := List.mem_map.mp hvalues
    obtain ⟨a, ha, rfl⟩ := List.mem_map.mp hvalue
    exact ⟨a, List.mem_flatten.mpr ⟨row, hrow, ha⟩, hv⟩
  · rintro ⟨a, ha, hv⟩
    obtain ⟨row, hrow, ha⟩ := List.mem_flatten.mp ha
    exact ⟨_, List.mem_map_of_mem hrow, _, List.mem_map_of_mem ha, hv⟩

theorem rangeValue_of_isCovered {ctx : Context} {r : Range} (h : ctx.isCovered r = true) :
    ctx.rangeValue r = .fault (.selfReference ctx.cell) := by
  rw [rangeValue, h, if_pos rfl]

end Context

namespace Expr

/-! ## Errors are passed on -/

mutual

/-- **Nothing in a formula swallows an error.** -/
theorem exists_error_of_address (hstrict : functions.Strict)
    (herror : (values.get a.key).isError = true) :
    (e : Expr) → a ∈ e.addresses →
      ∃ v ∈ (e.eval ⟨cell, values, functions⟩).leaves, v.isError = true
  | .number _, ha => absurd ha List.not_mem_nil
  | .text _, ha => absurd ha List.not_mem_nil
  | .failure _, ha => absurd ha List.not_mem_nil
  | .cell b, ha => by
    rw [addresses, List.mem_singleton] at ha
    rw [eval, ← ha, Value.leaves_of_isError herror]
    exact ⟨_, List.mem_cons_self, herror⟩
  | .range r, ha => by
    rw [eval]
    cases hcovered : Context.isCovered ⟨cell, values, functions⟩ r with
    | true =>
      -- the range reports that it covers the cell, which is an error too
      rw [Context.rangeValue_of_isCovered hcovered]
      exact ⟨_, List.mem_cons_self, rfl⟩
    | false =>
      refine ⟨_, (Context.mem_leaves_rangeValue hcovered).mpr ⟨a, ha, ?_⟩, herror⟩
      rw [Value.leaves_of_isError herror]
      exact List.mem_cons_self
  | .call name args, ha => by
    rw [eval]
    cases hf : functions.get? name with
    | none => exact ⟨_, List.mem_cons_self, rfl⟩
    | some f =>
      obtain ⟨v, hv, hverror⟩ := exists_error_of_argAddress hstrict herror args ha
      have hresult := hstrict name f hf _ v hv hverror
      refine ⟨f (evalArgs ⟨cell, values, functions⟩ args), ?_, hresult⟩
      rw [Value.leaves_of_isError hresult]
      exact List.mem_cons_self

theorem exists_error_of_argAddress (hstrict : functions.Strict)
    (herror : (values.get a.key).isError = true) :
    (args : List Expr) → a ∈ argAddresses args →
      ∃ v ∈ rowLeaves (evalArgs ⟨cell, values, functions⟩ args), v.isError = true
  | [], ha => absurd ha List.not_mem_nil
  | arg :: args, ha => by
    rw [evalArgs, rowLeaves]
    rcases List.mem_append.mp ha with ha | ha
    · obtain ⟨v, hv, hverror⟩ := exists_error_of_address hstrict herror arg ha
      exact ⟨v, List.mem_append_left _ hv, hverror⟩
    · obtain ⟨v, hv, hverror⟩ := exists_error_of_argAddress hstrict herror args ha
      exact ⟨v, List.mem_append_right _ hv, hverror⟩

end

/-! ## Errors of refused cells are not made up -/

variable {refused : String}

mutual

/-- **The error of a refused cell comes from a cell** that the formula mentions. -/
theorem exists_address_of_circular
    (hhonest : functions.Honest (EvalFault.circularReference refused).message) :
    (e : Expr) → (EvalFault.circularReference refused).message ∉ e.failures →
      .fault (.circularReference refused) ∈ (e.eval ⟨cell, values, functions⟩).leaves →
      ∃ a ∈ e.addresses, .fault (.circularReference refused) ∈ (values.get a.key).leaves
  | .number _, _, hv => by
    rw [eval, Value.leaves, List.mem_singleton] at hv
    cases hv
  | .text _, _, hv => by
    rw [eval, Value.leaves, List.mem_singleton] at hv
    cases hv
  | .failure message, hfailures, hv => by
    rw [eval, Value.leaves, List.mem_singleton] at hv
    rw [failures, List.mem_singleton] at hfailures
    exact absurd (Value.error.inj hv) hfailures
  | .cell b, _, hv => by
    rw [eval] at hv
    exact ⟨b, List.mem_cons_self, hv⟩
  | .range r, _, hv => by
    rw [eval] at hv
    cases hcovered : Context.isCovered ⟨cell, values, functions⟩ r with
    | true =>
      -- what the range reports is worded in another way
      rw [Context.rangeValue_of_isCovered hcovered, Value.leaves_of_isError rfl,
        List.mem_singleton] at hv
      exact absurd (Value.error.inj hv).symm (append_ne_circular (by decide) cell refused)
    | false => exact (Context.mem_leaves_rangeValue hcovered).mp hv
  | .call name args, hfailures, hv => by
    rw [eval] at hv
    cases hf : functions.get? name with
    | none =>
      rw [hf] at hv
      dsimp only at hv
      rw [Value.leaves_of_isError rfl, List.mem_singleton] at hv
      exact absurd (Value.error.inj hv).symm (append_ne_circular (by decide) name refused)
    | some f =>
      rw [hf] at hv
      exact exists_argAddress_of_circular hhonest args hfailures (hhonest name f hf _ hv)

theorem exists_argAddress_of_circular
    (hhonest : functions.Honest (EvalFault.circularReference refused).message) :
    (args : List Expr) → (EvalFault.circularReference refused).message ∉ argFailures args →
      .fault (.circularReference refused) ∈ rowLeaves (evalArgs ⟨cell, values, functions⟩ args) →
      ∃ a ∈ argAddresses args, .fault (.circularReference refused) ∈ (values.get a.key).leaves
  | [], _, hv => absurd hv List.not_mem_nil
  | arg :: args, hfailures, hv => by
    rw [argFailures, List.mem_append, not_or] at hfailures
    rw [evalArgs, rowLeaves, List.mem_append] at hv
    rcases hv with hv | hv
    · obtain ⟨a, ha, hv⟩ := exists_address_of_circular hhonest arg hfailures.1 hv
      exact ⟨a, List.mem_append_left _ ha, hv⟩
    · obtain ⟨a, ha, hv⟩ := exists_argAddress_of_circular hhonest args hfailures.2 hv
      exact ⟨a, List.mem_append_right _ ha, hv⟩

end

end Expr

end FormulaSheet
