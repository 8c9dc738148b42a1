import FormulaSheet.Dependency.Keys
import FormulaSheet.Formula.Eval
import FormulaSheet.Proofs.Grid.Walk

/-!
# What evaluation reads

An expression mentions the addresses of its references and all addresses of its ranges. Two facts
about them are kept apart. Evaluation reads no others: values that agree on the mentioned addresses
give the same result, whatever the functions are. And the keys of all of them are collected.

The second holds of every expression. Nothing else is collected from an expression whose ranges are
ordered; a range with its columns reversed contains nothing, and a cursor yields a cell in each row
of it.
-/

namespace FormulaSheet

namespace Expr

/-! ## Ranges and addresses of an expression -/

mutual

/-- The ranges in an expression, from left to right. -/
def ranges : Expr → List Range
  | .range r => [r]
  | .call _ args => argRanges args
  | .number _ => []
  | .text _ => []
  | .cell _ => []
  | .failure _ => []

/-- The ranges in arguments, from left to right. -/
def argRanges : List Expr → List Range
  | [] => []
  | arg :: args => arg.ranges ++ argRanges args

end

mutual

/-- The addresses that an expression mentions, from left to right. -/
def addresses : Expr → List Address
  | .cell a => [a]
  | .range r => r.rows.flatten
  | .call _ args => argAddresses args
  | .number _ => []
  | .text _ => []
  | .failure _ => []

/-- The addresses that arguments mention, from left to right. -/
def argAddresses : List Expr → List Address
  | [] => []
  | arg :: args => arg.addresses ++ argAddresses args

end

theorem mem_argRanges {r : Range} {args : List Expr} :
    r ∈ argRanges args ↔ ∃ arg ∈ args, r ∈ arg.ranges := by
  induction args with
  | nil => simp [argRanges]
  | cons arg args ih => simp [argRanges, ih]

/-! ## Evaluation -/

mutual

theorem eval_congr (cell : String) (functions : Registry) {values values' : Values} :
    (e : Expr) → (∀ a ∈ e.addresses, values.get a.key = values'.get a.key) →
      e.eval ⟨cell, values, functions⟩ = e.eval ⟨cell, values', functions⟩
  | .number _, _ => by rw [eval, eval]
  | .text _, _ => by rw [eval, eval]
  | .failure _, _ => by rw [eval, eval]
  | .cell a, h => by
    rw [addresses] at h
    rw [eval, eval]
    exact h a List.mem_cons_self
  | .range r, h => by
    rw [addresses] at h
    rw [eval, eval, Context.rangeValue, Context.rangeValue]
    -- whether the range covers the cell is a matter of its name
    have hcovered : Context.isCovered ⟨cell, values, functions⟩ r
        = Context.isCovered ⟨cell, values', functions⟩ r := rfl
    rw [hcovered]
    congr 2
    refine List.map_congr_left fun row hrow ↦ List.map_congr_left fun a ha ↦ ?_
    exact h a (List.mem_flatten.mpr ⟨row, hrow, ha⟩)
  | .call name args, h => by
    rw [addresses] at h
    rw [eval, eval]
    cases functions.get? name with
    | none => rfl
    | some f => exact congrArg f (evalArgs_congr cell functions args h)

theorem evalArgs_congr (cell : String) (functions : Registry) {values values' : Values} :
    (args : List Expr) → (∀ a ∈ argAddresses args, values.get a.key = values'.get a.key) →
      evalArgs ⟨cell, values, functions⟩ args = evalArgs ⟨cell, values', functions⟩ args
  | [], _ => by rw [evalArgs, evalArgs]
  | arg :: args, h => by
    rw [argAddresses] at h
    rw [evalArgs, evalArgs,
      eval_congr cell functions arg fun a ha ↦ h a (List.mem_append_left _ ha),
      evalArgs_congr cell functions args fun a ha ↦ h a (List.mem_append_right _ ha)]

end

/-! ## Keys -/

theorem mem_insertMany_key {keys : Keys} {cells : List Address} {key : String} :
    key ∈ keys.insertMany (cells.map Address.key) ↔ key ∈ keys ∨ ∃ a ∈ cells, a.key = key := by
  rw [Std.ExtTreeSet.mem_insertMany_list, List.contains_iff_mem, List.mem_map]

mutual

/-- What is collected has the keys of all mentioned addresses, and those from before. -/
theorem mem_addKeys_of_mem {limit : UInt64} {keys keys' : Keys} {key : String} :
    (e : Expr) → e.addKeys limit keys = .ok keys' →
      (key ∈ keys ∨ ∃ a ∈ e.addresses, a.key = key) → key ∈ keys'
  | .number _, hkeys, h => by
    rw [addKeys, Except.ok.injEq] at hkeys
    simpa [addresses, hkeys] using h
  | .text _, hkeys, h => by
    rw [addKeys, Except.ok.injEq] at hkeys
    simpa [addresses, hkeys] using h
  | .failure _, hkeys, h => by
    rw [addKeys, Except.ok.injEq] at hkeys
    simpa [addresses, hkeys] using h
  | .cell a, hkeys, h => by
    rw [addKeys, Except.ok.injEq] at hkeys
    rw [← hkeys, Keys.mem_insert]
    rw [addresses] at h
    rcases h with h | ⟨b, hb, rfl⟩
    · exact Or.inr h
    · exact Or.inl (congrArg Address.key (List.mem_singleton.mp hb))
  | .range r, hkeys, h => by
    rw [addKeys] at hkeys
    split at hkeys
    · cases hkeys
    · rw [Except.ok.injEq] at hkeys
      rw [← hkeys, mem_insertMany_key]
      refine h.imp_right fun ⟨a, ha, hkey⟩ ↦ ⟨a, ?_, hkey⟩
      -- a range that contains a cell is ordered
      rwa [(Range.ordered_of_mem_rows ha).cells_eq]
  | .call _ args, hkeys, h => by
    rw [addKeys] at hkeys
    exact mem_addArgKeys_of_mem args hkeys h

theorem mem_addArgKeys_of_mem {limit : UInt64} {keys keys' : Keys} {key : String} :
    (args : List Expr) → addArgKeys limit keys args = .ok keys' →
      (key ∈ keys ∨ ∃ a ∈ argAddresses args, a.key = key) → key ∈ keys'
  | [], hkeys, h => by
    rw [addArgKeys, Except.ok.injEq] at hkeys
    simpa [argAddresses, hkeys] using h
  | arg :: args, hkeys, h => by
    rw [addArgKeys] at hkeys
    split at hkeys
    next keys₁ harg =>
      refine mem_addArgKeys_of_mem args hkeys ?_
      have hfirst : (key ∈ keys ∨ ∃ a ∈ arg.addresses, a.key = key) → key ∈ keys₁ :=
        mem_addKeys_of_mem arg harg
      rw [argAddresses] at h
      rcases h with h | ⟨a, ha, hkey⟩
      · exact Or.inl (hfirst (Or.inl h))
      · rcases List.mem_append.mp ha with ha | ha
        · exact Or.inl (hfirst (Or.inr ⟨a, ha, hkey⟩))
        · exact Or.inr ⟨a, ha, hkey⟩
    · cases hkeys

end

mutual

/-- From an expression whose ranges are ordered no other keys are collected. -/
theorem mem_of_mem_addKeys {limit : UInt64} {keys keys' : Keys} {key : String} :
    (e : Expr) → (∀ r ∈ e.ranges, r.Ordered) → e.addKeys limit keys = .ok keys' → key ∈ keys' →
      key ∈ keys ∨ ∃ a ∈ e.addresses, a.key = key
  | .number _, _, hkeys, h => by
    rw [addKeys, Except.ok.injEq] at hkeys
    exact Or.inl (hkeys ▸ h)
  | .text _, _, hkeys, h => by
    rw [addKeys, Except.ok.injEq] at hkeys
    exact Or.inl (hkeys ▸ h)
  | .failure _, _, hkeys, h => by
    rw [addKeys, Except.ok.injEq] at hkeys
    exact Or.inl (hkeys ▸ h)
  | .cell a, _, hkeys, h => by
    rw [addKeys, Except.ok.injEq] at hkeys
    rw [← hkeys, Keys.mem_insert] at h
    rw [addresses]
    exact h.symm.imp_right fun hkey ↦ ⟨a, List.mem_singleton_self a, hkey.symm⟩
  | .range r, hordered, hkeys, h => by
    rw [ranges] at hordered
    rw [addKeys] at hkeys
    split at hkeys
    · cases hkeys
    · rw [Except.ok.injEq] at hkeys
      rwa [← hkeys, mem_insertMany_key, (hordered r List.mem_cons_self).cells_eq] at h
  | .call _ args, hordered, hkeys, h => by
    rw [ranges] at hordered
    rw [addKeys] at hkeys
    exact mem_of_mem_addArgKeys args hordered hkeys h

theorem mem_of_mem_addArgKeys {limit : UInt64} {keys keys' : Keys} {key : String} :
    (args : List Expr) → (∀ r ∈ argRanges args, r.Ordered) →
      addArgKeys limit keys args = .ok keys' → key ∈ keys' →
      key ∈ keys ∨ ∃ a ∈ argAddresses args, a.key = key
  | [], _, hkeys, h => by
    rw [addArgKeys, Except.ok.injEq] at hkeys
    exact Or.inl (hkeys ▸ h)
  | arg :: args, hordered, hkeys, h => by
    rw [argRanges, List.forall_mem_append] at hordered
    rw [addArgKeys] at hkeys
    rw [argAddresses]
    split at hkeys
    next keys₁ harg =>
      rcases mem_of_mem_addArgKeys args hordered.2 hkeys h with h | ⟨a, ha, hkey⟩
      · refine (mem_of_mem_addKeys arg hordered.1 harg h).imp_right fun ⟨a, ha, hkey⟩ ↦ ?_
        exact ⟨a, List.mem_append_left _ ha, hkey⟩
      · exact Or.inr ⟨a, List.mem_append_right _ ha, hkey⟩
    · cases hkeys

end

theorem key_mem_keys {limit : UInt64} {e : Expr} {keys : Keys} {a : Address}
    (hkeys : e.keys limit = .ok keys) (ha : a ∈ e.addresses) : a.key ∈ keys :=
  mem_addKeys_of_mem e hkeys (Or.inr ⟨a, ha, rfl⟩)

theorem eval_eq_of_keys {limit : UInt64} {e : Expr} {keys : Keys} (hkeys : e.keys limit = .ok keys)
    (cell : String) (functions : Registry) {values values' : Values}
    (hvalues : ∀ key ∈ keys, values.get key = values'.get key) :
    e.eval ⟨cell, values, functions⟩ = e.eval ⟨cell, values', functions⟩ :=
  eval_congr cell functions e fun a ha ↦ hvalues a.key (key_mem_keys hkeys ha)

/-- **The collected keys** are those of the mentioned addresses. -/
theorem mem_keys {limit : UInt64} {e : Expr} {keys : Keys} {key : String}
    (h : ∀ r ∈ e.ranges, r.Ordered) (hkeys : e.keys limit = .ok keys) :
    key ∈ keys ↔ ∃ a ∈ e.addresses, a.key = key := by
  constructor
  · intro hmem
    exact (mem_of_mem_addKeys e h hkeys hmem).resolve_left Std.ExtTreeSet.not_mem_empty
  · exact fun ha ↦ mem_addKeys_of_mem e hkeys (Or.inr ha)

end Expr

end FormulaSheet
