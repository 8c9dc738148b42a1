import FormulaSheet.Proofs.Grid.Naming

/-!
# Reading what has been written

A column is read from its letters, an address from its key and a range from its text, with the
exception of one column. The last column has letters like any other, but their numeral is one more
than the largest that is read. So whatever is written with it is refused, and it is refused by these
letters: the column of a corner is looked at before its row, and the second corner of an ordered
range is in the last column if the first one is.

Writing itself makes no exception. The letters and the digits of a key can be told apart, so two
addresses never share a key.
-/

namespace FormulaSheet

namespace Column

variable {name : String} {cs : List Char} {n : Nat}

/-! ## Columns -/

/-- Capital letters whose value passes the limit are refused by the whole name, and not by the
letter at which the limit is passed. -/
theorem readFrom_of_limit_lt (hletters : ∀ c ∈ cs, isLetter c = true) (hn : n ≤ limit)
    (hvalue : limit < valueFrom n cs) : readFrom name n cs = .error (.outOfBounds name) := by
  induction cs generalizing n with
  | nil => exact absurd hn (Nat.not_le.mpr hvalue)
  | cons c cs ih =>
    rw [List.forall_mem_cons] at hletters
    rw [readFrom, if_pos hletters.1]
    dsimp only
    by_cases hlimit : limit < n * 26 + digit c
    · rw [if_pos hlimit]
    · rw [if_neg hlimit]
      exact ih hletters.2 (Nat.not_lt.mp hlimit) hvalue

theorem ofLetters_letters (col : UInt32) :
    ofLetters (letters col)
      = if col.toNat < limit then .ok col else .error (.outOfBounds (letters col)) := by
  have hne : numeral (col.toNat + 1) ≠ [] := numeral_ne_nil (Nat.succ_ne_zero _)
  have hletters : ∀ c ∈ numeral (col.toNat + 1), isLetter c = true := isLetter_of_mem_numeral _
  have hvalue : value (numeral (col.toNat + 1)) = col.toNat + 1 := value_numeral _
  by_cases hcol : col.toNat < limit
  · rw [if_pos hcol]
    exact ofLetters_eq_ok_iff.mpr ⟨hne, hletters, hvalue, hcol⟩
  · have hempty : (String.ofList (numeral (col.toNat + 1))).isEmpty = false := by simpa using hne
    have hpast : limit < valueFrom 0 (numeral (col.toNat + 1)) := by
      rw [← value, hvalue]
      omega
    rw [if_neg hcol, letters, ofLetters, hempty, if_neg Bool.false_ne_true, String.toList_ofList,
      readFrom_of_limit_lt hletters (Nat.zero_le limit) hpast, Except.map]

end Column

namespace Address

variable {a b : Address}

/-! ## Addresses -/

theorem split_key (a : Address) :
    split a.key = (Column.numeral (a.col.toNat + 1), Nat.toDigits 10 a.row.toNat) :=
  split_of_append (toList_key a) (Column.isLetter_of_mem_numeral _) fun _ ↦ isDigit_of_mem_toDigits

theorem parse_key (a : Address) :
    parse a.key = if a.col.toNat < Column.limit then .ok a
      else .error (.outOfBounds (Column.letters a.col)) := by
  by_cases hcol : a.col.toNat < Column.limit
  · rw [if_pos hcol]
    exact parse_key_of_lt hcol
  · have hform : HasForm a.key := by
      rw [HasForm, split_key]
      exact ⟨Column.numeral_ne_nil (Nat.succ_ne_zero _), isDigits_toDigits _⟩
    have hletters := Column.ofLetters_letters a.col
    rw [if_neg hcol, Column.letters] at hletters
    rw [if_neg hcol, parse, if_pos hform, split_key, hletters]
    rfl

/-- **No two addresses share a key.** -/
theorem key_inj : a.key = b.key ↔ a = b := by
  refine ⟨fun h ↦ ?_, congrArg key⟩
  have hsplit := split_key a
  rw [h, split_key, Prod.mk.injEq] at hsplit
  have hcol := congrArg Column.value hsplit.1
  have hrow := congrArg (Nat.ofDigitChars 10 · 0) hsplit.2
  rw [Column.value_numeral, Column.value_numeral, Nat.add_right_cancel_iff,
    UInt32.toNat_inj] at hcol
  rw [Nat.ofDigitChars_ten_toDigits, Nat.ofDigitChars_ten_toDigits, UInt32.toNat_inj] at hrow
  cases a
  cases b
  rw [mk.injEq]
  exact ⟨hcol.symm, hrow.symm⟩

end Address

namespace Range

variable {r : Range}

/-! ## Ranges -/

theorem colon_not_mem_key (a : Address) : ∀ c ∈ a.key.toList, c ≠ ':' := by
  rw [Address.toList_key]
  exact colon_not_mem_of_append (Column.isLetter_of_mem_numeral _)
    fun _ ↦ Address.isDigit_of_mem_toDigits

theorem Ordered.parse_text (h : r.Ordered) :
    parse r.text = if r.last.col.toNat < Column.limit then .ok r
      else .error (.outOfBounds (Column.letters r.last.col)) := by
  by_cases hlast : r.last.col.toNat < Column.limit
  · rw [if_pos hlast]
    exact parse_eq_ok_iff.mpr (names_text h hlast)
  · rw [if_neg hlast, parse, text, split_of_append (colon_not_mem_key r.first)]
    dsimp only
    rw [Address.parse_key, Address.parse_key, if_neg hlast]
    by_cases hfirst : r.first.col.toNat < Column.limit
    · rw [if_pos hfirst]
      rfl
    · -- only one column is not read, so both corners lie in it
      have hsame : r.first.col = r.last.col := by
        have hle : r.first.col.toNat ≤ r.last.col.toNat := UInt32.le_iff_toNat_le.mp h.1
        have hsize := r.last.col.toNat_lt_size
        rw [Column.limit] at hfirst
        exact UInt32.toNat_inj.mp (by omega)
      rw [if_neg hfirst, hsame]
      rfl

end Range

/-! ## The last column -/

/-- **What is written is read back**, but for the last column: letters of a column as the column,
the key of an address as the address, and the text of a range as the range. What is written with the
last column is out of bounds. -/
theorem parse_written (a b : Address) :
    Column.ofLetters (Column.letters a.col)
      = (if a.col.toNat < Column.limit then .ok a.col
        else .error (.outOfBounds (Column.letters a.col))) ∧
    Address.parse a.key
      = (if a.col.toNat < Column.limit then .ok a
        else .error (.outOfBounds (Column.letters a.col))) ∧
    ∀ r, Range.ofCorners a b = .ok r → Range.parse r.text
      = if r.last.col.toNat < Column.limit then .ok r
        else .error (.outOfBounds (Column.letters r.last.col)) := by
  refine ⟨Column.ofLetters_letters a.col, Address.parse_key a, fun r h ↦ ?_⟩
  exact (Range.ofCorners_eq_ok_iff.mp h).2.parse_text

theorem letters_first : Column.letters 0 = "A" := by
  simp [Column.letters, Column.numeral, Column.letter]

theorem letters_last_but_one : Column.letters 4294967294 = "MWLQKWU" := by
  simp [Column.letters, Column.numeral, Column.letter]

private theorem letters_last : Column.letters 4294967295 = "MWLQKWV" := by
  simp [Column.letters, Column.numeral, Column.letter]

/-- The widest range that is read back, and the widest of all, which is not. -/
theorem parse_written_widest :
    let widest : Range := ⟨⟨0, 0⟩, ⟨4294967294, 4294967295⟩⟩
    let whole : Range := ⟨⟨0, 0⟩, ⟨4294967295, 4294967295⟩⟩
    (Range.ofCorners widest.first widest.last = .ok widest ∧
      widest.text = "A0:MWLQKWU4294967295" ∧ Range.parse widest.text = .ok widest) ∧
    (Range.ofCorners whole.first whole.last = .ok whole ∧
      Range.parse whole.text = .error (.outOfBounds "MWLQKWV")) := by
  intro widest whole
  have hwidest : Range.ofCorners widest.first widest.last = .ok widest := by decide
  have hwhole : Range.ofCorners whole.first whole.last = .ok whole := by decide
  have htext : Range.text ⟨⟨0, 0⟩, ⟨4294967294, 4294967295⟩⟩ = "A0:MWLQKWU4294967295" := by
    rw [Range.text, Address.key, Address.key, letters_first, letters_last_but_one]
    rfl
  refine ⟨⟨hwidest, htext, ((parse_written _ _).2.2 widest hwidest).trans (if_pos (by decide))⟩,
    hwhole, ?_⟩
  rw [(parse_written _ _).2.2 whole hwhole, if_neg (by decide), letters_last]

/-- The last column has letters, and they are not read. Nor is the key of a cell that lies in it,
nor the text of the range of this cell alone. -/
theorem not_parse_written_last :
    let corner : Address := ⟨4294967295, 1⟩
    Column.letters corner.col = "MWLQKWV" ∧ corner.key = "MWLQKWV1" ∧
      Column.ofLetters "MWLQKWV" = .error (.outOfBounds "MWLQKWV") ∧
      Address.parse corner.key ≠ .ok corner ∧
      Range.ofCorners corner corner = .ok ⟨corner, corner⟩ ∧
      Range.parse (Range.text ⟨corner, corner⟩) ≠ .ok ⟨corner, corner⟩ := by
  intro corner
  have hordered : Range.Ordered ⟨corner, corner⟩ := by decide
  have hkey : Address.key ⟨4294967295, 1⟩ = "MWLQKWV1" := by
    rw [Address.key, letters_last]
    rfl
  have hletters := Column.ofLetters_letters corner.col
  rw [letters_last, if_neg (by decide)] at hletters
  refine ⟨letters_last, hkey, hletters, ?_, by decide, ?_⟩
  · rw [Address.parse_key, if_neg (by decide)]
    intro h
    cases h
  · rw [hordered.parse_text, if_neg (by decide)]
    intro h
    cases h

end FormulaSheet
