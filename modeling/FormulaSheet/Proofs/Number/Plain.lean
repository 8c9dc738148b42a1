import FormulaSheet.Number.Layout
import FormulaSheet.Proofs.Formula.Written
import FormulaSheet.Proofs.Grid.Naming
import FormulaSheet.Proofs.Number.Bits
import FormulaSheet.Proofs.Number.Whole

/-!
# Numbers in plain text

The plain text of a number is the numeral of a natural number exactly if the number is whole, and
the numeral then reads back as the number. All other numbers are written with a character that no
formula word has, a point, a sign or a small letter, and in no number is there a break.
-/

namespace FormulaSheet

namespace Binary64

/-- The double is a number and not infinite. -/
def IsFinite (x : Float) : Prop := pattern x < infinity

/-- The double is a natural number, and not negative zero. -/
structure IsWhole (x : Float) : Prop where
  /-- It is finite. -/
  finite : IsFinite x
  /-- Its sign is not set. -/
  nonneg : isNegative x = false
  /-- Its value is a multiple of one. -/
  whole : one ∣ units (pattern x)

/-- What natural numbers are rounded to is whole, unless it is infinite. -/
theorem isWhole_ofNat_iff (n : Nat) : IsWhole (ofNat n) ↔ IsFinite (ofNat n) := by
  refine ⟨IsWhole.finite, fun h ↦ ⟨h, isNegative_ofNat n, ?_⟩⟩
  rw [IsFinite, pattern_ofNat] at h
  rw [pattern_ofNat]
  exact dvd_units_nearest h

theorem ofNat_eq {x : Float} {n : Nat} (h : isNegative x = false)
    (hn : nearest n 1 = pattern x) : ofNat n = x :=
  eq_of_pattern_eq (isNegative_ofNat n) h ((pattern_ofNat n).trans hn)

end Binary64

open Binary64 (IsFinite IsWhole)

namespace NumberFormat

variable {x : Float} {bits : Nat}

/-! ## Numerals -/

theorem magnitude_of_dvd (hfinite : bits < Binary64.infinity)
    (h : Binary64.one ∣ Binary64.units bits) :
    ∃ n, plain.magnitude bits = Nat.repr n ∧ Binary64.nearest n 1 = bits := by
  rw [magnitude]
  by_cases hzero : bits = 0
  · rw [if_pos hzero, hzero]
    exact ⟨0, rfl, Binary64.nearest_zero⟩
  · have hexponent := (Decimal.exponent_shortest_nonneg_iff .up hfinite hzero).mpr h
    refine ⟨_, ?_, Decimal.nearest_shortest hexponent⟩
    rw [if_neg hzero]
    change Decimal.inFull "" (Decimal.shortest .up bits) = _
    rw [Decimal.inFull, if_pos hexponent, String.append_empty]

theorem magnitude_of_not_dvd (hfinite : bits < Binary64.infinity)
    (h : ¬Binary64.one ∣ Binary64.units bits) :
    plain.magnitude bits = (Decimal.shortest .up bits).inFull "" ∧
      ¬0 ≤ (Decimal.shortest .up bits).exponent := by
  have hzero : bits ≠ 0 := by
    rintro rfl
    exact h (Nat.dvd_zero _)
  rw [magnitude, if_neg hzero]
  exact ⟨rfl, mt (Decimal.exponent_shortest_nonneg_iff .up hfinite hzero).mp h⟩

theorem point_mem_magnitude (hfinite : bits < Binary64.infinity)
    (h : ¬Binary64.one ∣ Binary64.units bits) : '.' ∈ (plain.magnitude bits).toList := by
  obtain ⟨htext, hexponent⟩ := magnitude_of_not_dvd hfinite h
  rw [htext, Decimal.inFull, if_neg hexponent, String.toList_ofList]
  exact List.mem_append_right _ List.mem_cons_self

/-- **Whole numbers.** A whole number is written as a numeral that reads back as it. -/
theorem write_of_isWhole (h : IsWhole x) :
    ∃ n, plain.write x = Nat.repr n ∧ Binary64.ofNat n = x := by
  obtain ⟨n, htext, hn⟩ := magnitude_of_dvd h.finite h.whole
  refine ⟨n, ?_, Binary64.ofNat_eq h.nonneg hn⟩
  have hfinite := h.finite
  rw [IsFinite] at hfinite
  rw [write, if_neg (Nat.lt_asymm hfinite), if_neg hfinite.ne, h.nonneg,
    if_neg Bool.false_ne_true, htext]

/-- The characters by which one sees that a number is not whole. -/
def marks : List Char := ['.', '-', 'n', 'a']

/-- **Other numbers.** The text of a number that is not whole shows that it is not. -/
theorem exists_mark (h : ¬IsWhole x) : ∃ c ∈ (plain.write x).toList, c ∈ marks := by
  rw [write]
  split
  next => exact ⟨'a', by decide, by decide⟩
  next hnumber =>
    split
    next =>
      split
      next => exact ⟨'-', by decide, by decide⟩
      next => exact ⟨'n', by decide, by decide⟩
    next hinfinite =>
      split
      next => exact ⟨'-', by simp, by decide⟩
      next hsign =>
        have hfinite : IsFinite x := Nat.lt_of_le_of_ne (Nat.not_lt.mp hnumber) hinfinite
        refine ⟨'.', point_mem_magnitude hfinite fun hdvd ↦ h ?_, by decide⟩
        exact ⟨hfinite, Bool.eq_false_iff.mpr hsign, hdvd⟩

/-! ## Words -/

theorem isDigit_of_mem_repr {n : Nat} {c : Char} (hc : c ∈ (Nat.repr n).toList) :
    Address.isDigit c = true := by
  rw [Nat.toList_repr] at hc
  exact Address.isDigit_of_mem_toDigits hc

theorem isDigit_of_mem_padded {m n : Nat} {c : Char}
    (hc : c ∈ List.replicate m '0' ++ Nat.toDigits 10 n) : Address.isDigit c = true := by
  rcases List.mem_append.mp hc with hc | hc
  · rw [List.eq_of_mem_replicate hc]
    decide
  · exact Address.isDigit_of_mem_toDigits hc

theorem mem_magnitude {c : Char} (hc : c ∈ (plain.magnitude bits).toList) :
    c = '.' ∨ Address.isDigit c = true := by
  rw [magnitude] at hc
  split at hc
  next =>
    obtain rfl : c = '0' := by simpa [plain] using hc
    exact .inr rfl
  next =>
    change c ∈ ((Decimal.shortest .up bits).inFull "").toList at hc
    rw [Decimal.inFull] at hc
    split at hc
    next =>
      rw [String.append_empty] at hc
      exact .inr (isDigit_of_mem_repr hc)
    next =>
      rw [String.toList_ofList, List.mem_append, List.mem_cons] at hc
      rcases hc with hc | rfl | hc
      · exact .inr (isDigit_of_mem_padded (List.mem_of_mem_take hc))
      · exact .inl rfl
      · exact .inr (isDigit_of_mem_padded (List.mem_of_mem_drop hc))

theorem isBreak_of_isDigit {c : Char} (h : Address.isDigit c = true) : Token.isBreak c = false :=
  Token.isBreak_eq_false (p := Address.isDigit) (by decide) h

theorem isBreak_of_mem_magnitude {c : Char} (hc : c ∈ (plain.magnitude bits).toList) :
    Token.isBreak c = false := by
  rcases mem_magnitude hc with rfl | hdigit
  · decide
  · exact isBreak_of_isDigit hdigit

/-- **Numbers are words.** -/
theorem isWord_write (x : Float) : Token.IsWord (plain.write x) where
  ne_nil := by
    by_cases h : IsWhole x
    · obtain ⟨n, htext, -⟩ := write_of_isWhole h
      rw [htext, Nat.toList_repr]
      exact Nat.toDigits_ne_nil
    · obtain ⟨c, hc, -⟩ := exists_mark h
      exact List.ne_nil_of_mem hc
  isBreak_eq := by
    have hmagnitude : ∀ c ∈ (plain.magnitude (Binary64.pattern x)).toList,
        Token.isBreak c = false := fun c ↦ isBreak_of_mem_magnitude
    rw [write]
    split
    next => exact Token.isBreak_of_any (by decide)
    next =>
      split
      next => split <;> exact Token.isBreak_of_any (by decide)
      next =>
        split
        next =>
          rw [String.toList_append, List.forall_mem_append]
          exact ⟨Token.isBreak_of_any (by decide), hmagnitude⟩
        next => exact hmagnitude

end NumberFormat

end FormulaSheet
