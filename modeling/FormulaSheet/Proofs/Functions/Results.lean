import FormulaSheet.Proofs.Functions.Errors

/-!
# What arithmetic comes to

An operation sees its arguments with all arrays opened, and of what is there it uses two things: the
first error, and the numbers in their order. `firstError?` and `heldNumbers` are these two, and
`results_of_held` says that the second counts only if the first does not exist.

An error wins over everything that could go wrong with the numbers, wherever it stands: over a zero
to divide by that comes before it, and over a lack of numbers.

A division is given up at the first divisor that is zero, and the quotients up to there are lost. So
it is given up if there is such a divisor anywhere behind the first number.
-/

namespace FormulaSheet.Arithmetic

open Value (rowLeaves)

variable {g : List Float → Value} {f : Function} {args args' : List Value} {e : Value}
variable {x : Float} {ys : List Float}

/-! ## What arguments hold -/

/-- The first error that arguments hold. -/
def firstError? (args : List Value) : Option Value := (rowLeaves args).find? Value.isError

/-- The numbers that arguments hold, in order. -/
def heldNumbers (args : List Value) : List Float := (rowLeaves args).filterMap Value.number?

theorem onNumbers_of_firstError? (h : firstError? args = some e) : onNumbers g args = e := by
  rw [firstError?] at h
  rw [onNumbers_eq, h]

theorem onNumbers_of_no_error (h : firstError? args = none) :
    onNumbers g args = g (heldNumbers args) := by
  rw [firstError?] at h
  rw [onNumbers_eq, h, heldNumbers]

/-- The four operations. -/
def operations : List Function := [add, minus, times, divide]

theorem exists_onNumbers (hf : f ∈ operations) : ∃ g, f = onNumbers g := by
  revert f
  simp only [operations, List.forall_mem_cons, List.not_mem_nil, false_imp_iff, implies_true,
    and_true]
  exact ⟨⟨_, rfl⟩, ⟨_, rfl⟩, ⟨_, rfl⟩, ⟨_, rfl⟩⟩

theorem eq_of_firstError? (hf : f ∈ operations) (h : firstError? args = some e) : f args = e := by
  obtain ⟨g, rfl⟩ := exists_onNumbers hf
  exact onNumbers_of_firstError? h

theorem eq_of_heldNumbers_eq (hf : f ∈ operations) (h : firstError? args = none)
    (h' : firstError? args' = none) (hnumbers : heldNumbers args' = heldNumbers args) :
    f args' = f args := by
  obtain ⟨g, rfl⟩ := exists_onNumbers hf
  rw [onNumbers_of_no_error h, onNumbers_of_no_error h', hnumbers]

/-! ## Division by numbers -/

/-- A division by one number after another is given up if any of them is zero. -/
theorem divideBy_eq (x : Float) (ys : List Float) :
    divideBy x ys =
      if ys.any (· == 0) then .fault .divisionByZero else .number (ys.foldl (· / ·) x) := by
  induction ys generalizing x with
  | nil => rw [divideBy, List.any_nil, if_neg Bool.false_ne_true, List.foldl_nil]
  | cons y ys ih =>
    rw [divideBy, List.any_cons, List.foldl_cons]
    by_cases hy : (y == 0) = true
    · rw [if_pos hy, hy, Bool.true_or, if_pos rfl]
    · rw [if_neg hy, ih (x / y), Bool.eq_false_iff.mpr hy, Bool.false_or]

theorem divideBy_eq_zero_iff :
    divideBy x ys = .fault .divisionByZero ↔ ∃ y ∈ ys, (y == 0) = true := by
  rw [divideBy_eq, ← List.any_eq_true]
  by_cases hzero : ys.any (· == 0) = true
  · rw [if_pos hzero]
    exact iff_of_true rfl hzero
  · rw [if_neg hzero]
    exact iff_of_false (fun h ↦ by cases h) hzero

theorem missing_ne_zero :
    Value.fault (.missingNumber "DIVIDE") ≠ .fault .divisionByZero := by
  intro h
  have hmessage := Value.error.inj h
  exact absurd hmessage (by decide)

theorem divideBy_ne_missing : divideBy x ys ≠ .fault (.missingNumber "DIVIDE") := by
  rw [divideBy_eq]
  split
  · exact missing_ne_zero.symm
  · exact fun h ↦ by cases h

/-! ## The operations without an error -/

section

variable (h : firstError? args = none)

include h

theorem add_eq : add args = .number ((heldNumbers args).foldl (· + ·) (-0.0)) :=
  onNumbers_of_no_error h

theorem times_eq : times args = .number ((heldNumbers args).foldl (· * ·) 1.0) :=
  onNumbers_of_no_error h

theorem minus_of_nil (hnumbers : heldNumbers args = []) :
    minus args = .fault (.missingNumber "MINUS") := by
  rw [minus, onNumbers_of_no_error h, hnumbers]

theorem minus_of_cons (hnumbers : heldNumbers args = x :: ys) :
    minus args = .number (ys.foldl (· - ·) x) := by
  rw [minus, onNumbers_of_no_error h, hnumbers]

theorem divide_of_nil (hnumbers : heldNumbers args = []) :
    divide args = .fault (.missingNumber "DIVIDE") := by
  rw [divide, onNumbers_of_no_error h, hnumbers]

theorem divide_of_cons (hnumbers : heldNumbers args = x :: ys) : divide args = divideBy x ys := by
  rw [divide, onNumbers_of_no_error h, hnumbers]

theorem minus_eq_missing_iff :
    minus args = .fault (.missingNumber "MINUS") ↔ heldNumbers args = [] := by
  refine ⟨fun hminus ↦ ?_, minus_of_nil h⟩
  cases hnumbers : heldNumbers args with
  | nil => rfl
  | cons x ys =>
    rw [minus_of_cons h hnumbers] at hminus
    cases hminus

theorem divide_eq_missing_iff :
    divide args = .fault (.missingNumber "DIVIDE") ↔ heldNumbers args = [] := by
  refine ⟨fun hdivide ↦ ?_, divide_of_nil h⟩
  cases hnumbers : heldNumbers args with
  | nil => rfl
  | cons x ys =>
    rw [divide_of_cons h hnumbers] at hdivide
    exact absurd hdivide divideBy_ne_missing

theorem divide_eq_zero_iff :
    divide args = .fault .divisionByZero ↔ ∃ y ∈ (heldNumbers args).tail, (y == 0) = true := by
  cases hnumbers : heldNumbers args with
  | nil =>
    rw [divide_of_nil h hnumbers]
    exact iff_of_false missing_ne_zero fun ⟨y, hy, _⟩ ↦ List.not_mem_nil hy
  | cons x ys =>
    rw [divide_of_cons h hnumbers, List.tail_cons]
    exact divideBy_eq_zero_iff

end

/-! ## All results -/

/-- **What arithmetic comes to.** If the arguments hold an error, each operation comes to the first
one. If not, the numbers that they hold decide: a sum and a product are numbers; a difference is
missing its numbers exactly if there are none, and so is a quotient; and a quotient is a division by
zero exactly if a number behind the first one equals zero. -/
theorem results_of_held (args : List Value) :
    (∀ e, firstError? args = some e → ∀ f ∈ operations, f args = e) ∧
    (firstError? args = none →
      (∀ args', firstError? args' = none → heldNumbers args' = heldNumbers args →
        ∀ f ∈ operations, f args' = f args) ∧
      add args = .number ((heldNumbers args).foldl (· + ·) (-0.0)) ∧
      times args = .number ((heldNumbers args).foldl (· * ·) 1.0) ∧
      (minus args = .fault (.missingNumber "MINUS") ↔ heldNumbers args = []) ∧
      (divide args = .fault (.missingNumber "DIVIDE") ↔ heldNumbers args = []) ∧
      (divide args = .fault .divisionByZero ↔
        ∃ y ∈ (heldNumbers args).tail, (y == 0) = true) ∧
      ∀ x ys, heldNumbers args = x :: ys →
        minus args = .number (ys.foldl (· - ·) x) ∧
        ((∀ y ∈ ys, (y == 0) = false) → divide args = .number (ys.foldl (· / ·) x))) := by
  refine ⟨fun e he f hf ↦ eq_of_firstError? hf he, fun h ↦
    ⟨fun args' h' hnumbers f hf ↦ eq_of_heldNumbers_eq hf h h' hnumbers, add_eq h, times_eq h,
      minus_eq_missing_iff h, divide_eq_missing_iff h, divide_eq_zero_iff h,
      fun x ys hnumbers ↦ ⟨minus_of_cons h hnumbers, fun hys ↦ ?_⟩⟩⟩
  have hnone : ys.any (· == 0) = false := List.any_eq_false.mpr fun y hy ↦ by
    rw [hys y hy]
    exact Bool.false_ne_true
  rw [divide_of_cons h hnumbers, divideBy_eq, hnone, if_neg Bool.false_ne_true]

/-- Numbers in nested arrays with other values between them. -/
def scattered : List Value :=
  [.array [[.number 20, .text "x"], [.empty, .array [[], [.number 2]]]], .number 5]

/-- A zero to divide by, with errors behind it. -/
def faulty : List Value := [.text "1", .array [[.number 1, .number 0], [.error "e", .error "f"]]]

/-- Numbers that are scattered count as the numbers by themselves, and an error wins over a zero. -/
theorem results_of_held_scattered :
    (firstError? scattered = none ∧ heldNumbers scattered = [20, 2, 5] ∧
      minus scattered = .number 13 ∧ divide scattered = .number 2 ∧
      divide [.number 20, .number 2, .number 5] = divide scattered) ∧
    (firstError? [.number 1, .number 0] = none ∧
      divide [.number 1, .number 0] = .fault .divisionByZero) ∧
    (firstError? faulty = some (.error "e") ∧ divide faulty = .error "e") := by
  have hscattered : firstError? scattered = none := rfl
  have hzero : firstError? [.number 1, .number 0] = none := rfl
  have hfaulty : firstError? faulty = some (.error "e") := rfl
  obtain ⟨hsame, -, -, -, -, -, hcons⟩ := (results_of_held scattered).2 hscattered
  obtain ⟨hminus, hdivide⟩ := hcons 20 [2, 5] rfl
  have hdifference : [(2 : Float), 5].foldl (· - ·) 20 = 13 := by decide +kernel
  have hquotient : [(2 : Float), 5].foldl (· / ·) 20 = 2 := by decide +kernel
  have hnonzero : ∀ y ∈ [(2 : Float), 5], (y == 0) = false := by decide +kernel
  have hdivide : divide scattered = .number 2 := hquotient ▸ hdivide hnonzero
  refine ⟨⟨hscattered, rfl, hdifference ▸ hminus, hdivide, ?_⟩, ⟨hzero, ?_⟩, hfaulty, ?_⟩
  · exact hsame [.number 20, .number 2, .number 5] rfl rfl divide (by simp [operations])
  · obtain ⟨-, -, -, -, -, hiff, -⟩ := (results_of_held [.number 1, .number 0]).2 hzero
    exact hiff.mpr ⟨0, List.mem_cons_self, by decide +kernel⟩
  · exact (results_of_held faulty).1 _ hfaulty divide (by simp [operations])

end FormulaSheet.Arithmetic
