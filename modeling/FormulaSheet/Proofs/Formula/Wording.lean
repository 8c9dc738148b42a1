import FormulaSheet.Proofs.Formula.Parsed

/-!
# The wording of faults

An error is told by its message alone, so what an error says about a sheet depends on which messages
can be confused. The error of a refused cell cannot: no other fault is worded like it, and its
message names the cell. In particular no text that is put into a cell can counterfeit it, for the
failures of formulas are faults of text.

Messages are told apart by their first two letters.
-/

namespace FormulaSheet

/-! ## The error of a refused cell -/

theorem message_circularReference (cell : String) :
    (EvalFault.circularReference cell).message = "Circular reference: " ++ cell := rfl

theorem circularReference_injective {a b : String}
    (h : (EvalFault.circularReference a).message = (EvalFault.circularReference b).message) :
    a = b := by
  rw [message_circularReference, message_circularReference] at h
  have hlist := congrArg String.toList h
  rw [String.toList_append, String.toList_append] at hlist
  exact String.toList_injective (List.append_cancel_left hlist)

theorem take_circularReference (cell : String) :
    (EvalFault.circularReference cell).message.toList.take 2 = ['C', 'i'] := by
  have hlong : 2 ≤ "Circular reference: ".toList.length := by decide
  rw [message_circularReference, String.toList_append, List.take_append_of_le_length hlong]
  decide

theorem ne_circular {text : String} (h : text.toList.take 2 ≠ ['C', 'i']) (cell : String) :
    text ≠ (EvalFault.circularReference cell).message := by
  rintro rfl
  exact h (take_circularReference cell)

theorem append_ne_circular {start : String}
    (h : 2 ≤ start.toList.length ∧ start.toList.take 2 ≠ ['C', 'i']) (rest cell : String) :
    start ++ rest ≠ (EvalFault.circularReference cell).message := by
  refine ne_circular ?_ cell
  rw [String.toList_append, List.take_append_of_le_length h.1]
  exact h.2

/-! ## Other faults -/

theorem AddressFault.message_ne_circular (fault : AddressFault) (cell : String) :
    fault.message ≠ (EvalFault.circularReference cell).message := by
  cases fault with
  | malformed text => exact append_ne_circular (by decide) text cell
  | outOfBounds text => exact append_ne_circular (by decide) text cell
  | badColumnLetter letter =>
    change "Invalid cell address: invalid column letter '" ++ letter.toString ++ "'" ≠ _
    rw [String.append_assoc]
    exact append_ne_circular (by decide) _ cell
  | noColumnLetters | reversedColumns | reversedRows => exact ne_circular (by decide) cell

theorem ParseFault.message_ne_circular (fault : ParseFault) (cell : String) :
    fault.message ≠ (EvalFault.circularReference cell).message := by
  cases fault with
  | address fault => exact fault.message_ne_circular cell
  | unknownValue text => exact append_ne_circular (by decide) text cell
  | tooDeep limit =>
    change "Formula nested deeper than " ++ Nat.repr limit ++ " levels" ≠ _
    rw [String.append_assoc]
    exact append_ne_circular (by decide) _ cell
  | unterminatedString | emptyExpression | unexpectedCloseParen | trailingTokens
  | trailingAfterCall | unmatchedParen | missingFunctionName => exact ne_circular (by decide) cell

theorem OversizedRange.message_ne_circular (o : OversizedRange) (cell : String) :
    o.message ≠ (EvalFault.circularReference cell).message := by
  rw [message]
  simp only [String.append_assoc]
  exact append_ne_circular (by decide) _ cell

/-! ## Failures in formulas -/

namespace Expr

mutual

/-- The messages of the failures in an expression, from left to right. -/
def failures : Expr → List String
  | .failure message => [message]
  | .call _ args => argFailures args
  | .number _ => []
  | .text _ => []
  | .cell _ => []
  | .range _ => []

/-- The messages of the failures in arguments, from left to right. -/
def argFailures : List Expr → List String
  | [] => []
  | arg :: args => arg.failures ++ argFailures args

end

theorem argFailures_eq_nil {args : List Expr} (h : ∀ arg ∈ args, arg.failures = []) :
    argFailures args = [] := by
  induction args with
  | nil => rfl
  | cons arg args ih =>
    rw [List.forall_mem_cons] at h
    rw [argFailures, h.1, ih h.2, List.append_nil]

theorem failures_of_ofWord {word : String} {e : Expr} (h : ofWord word = .ok e) :
    e.failures = [] := by
  rw [ofWord] at h
  split at h
  · obtain rfl := Except.ok.inj h
    rfl
  split at h
  · obtain ⟨a, -, rfl⟩ := map_eq_ok_iff.mp h
    rfl
  split at h
  · split at h
    · obtain ⟨r, -, rfl⟩ := map_eq_ok_iff.mp h
      rfl
    · cases h
  · cases h

theorem failures_of_ofTokens {levels : Nat} {ts : List Token} {e : Expr}
    (h : ofTokens levels ts = .ok e) : e.failures = [] :=
  ofTokens_induction (P := fun e ↦ e.failures = []) (fun _ _ ↦ failures_of_ofWord) (fun _ ↦ rfl)
    (fun _ _ ↦ argFailures_eq_nil) h

/-- **Failures from text** are faults of the text. -/
theorem exists_fault_of_parse {text message : String} {e : Expr} (h : parse text = some e)
    (hmessage : message ∈ e.failures) : ∃ fault : ParseFault, message = fault.message := by
  rw [parse] at h
  split at h
  next e' hparse =>
    subst h
    rw [parse?] at hparse
    split at hparse
    · cases hparse
    · cases hparse
    · obtain ⟨e', htokens, he⟩ := map_eq_ok_iff.mp hparse
      obtain rfl := Option.some.inj he
      rw [failures_of_ofTokens htokens] at hmessage
      exact absurd hmessage List.not_mem_nil
  next fault _ =>
    obtain rfl := Option.some.inj h
    exact ⟨fault, List.mem_singleton.mp hmessage⟩

end Expr

end FormulaSheet
