import FormulaSheet.Proofs.Grid.Spelling
import Mathlib.Data.List.Induction

/-!
# Superfluous zeros

The spellings of an address differ in the zeros that the row starts with, and in nothing else. The
letters leave no choice, for a numeral without a digit zero is the only one of its value. The digits
of the key are those of the spelling without the zeros that can be left out.

A key is a spelling of its own address, so bringing names to their keys is done once and for all.
Two names are brought to the same key when they are spellings of one address, or are the same name.
In particular a name that is no address shares its key with no other name.
-/

namespace FormulaSheet

namespace Column

variable {c : Char} {letters : List Char}

/-! ## Letters -/

theorem letter_digit (h : isLetter c = true) : letter (digit c - 1) = c ∧ digit c ≤ 26 := by
  have hlow : 'A'.toNat ≤ c.toNat := UInt32.le_iff_toNat_le.mp (isLetter_iff.mp h).1
  have hhigh : c.toNat ≤ 'Z'.toNat := UInt32.le_iff_toNat_le.mp (isLetter_iff.mp h).2
  have hspan : 'Z'.toNat = 'A'.toNat + 25 := by decide
  have hplace : 'A'.toNat + (digit c - 1) = c.toNat := by
    rw [digit]
    omega
  refine ⟨?_, ?_⟩
  · rw [letter, hplace, Char.ofNat_toNat]
  · rw [digit]
    omega

theorem numeral_value (h : ∀ c ∈ letters, isLetter c = true) :
    numeral (value letters) = letters := by
  induction letters using List.reverseRecOn with
  | nil => rw [value, valueFrom, List.foldl_nil, numeral, if_pos rfl]
  | append_singleton letters c ih =>
    rw [List.forall_mem_append, List.forall_mem_singleton] at h
    obtain ⟨hletter, hle⟩ := letter_digit h.2
    have hpos := digit_pos c
    have hvalue : value (letters ++ [c]) = value letters * 26 + digit c := valueFrom_append 0 _ _
    have hfront : (value letters * 26 + digit c - 1) / 26 = value letters := by omega
    have hlast : (value letters * 26 + digit c - 1) % 26 = digit c - 1 := by omega
    rw [hvalue, numeral, if_neg (by omega), hfront, hlast, ih h.1, hletter]

end Column

namespace Address

variable {c : Char} {digits : List Char} {text x y : String} {a : Address} {n : Nat}

/-! ## Digits -/

/-- Digits without the zeros that they start with; the last digit stays. -/
def dropZeros : List Char → List Char
  | '0' :: c :: cs => dropZeros (c :: cs)
  | cs => cs

theorem digitChar_toNat (h : isDigit c = true) :
    Nat.digitChar (c.toNat - '0'.toNat) = c ∧ c.toNat - '0'.toNat < 10 := by
  have hlow : '0'.toNat ≤ c.toNat := UInt32.le_iff_toNat_le.mp (isDigit_iff.mp h).1
  have hhigh : c.toNat ≤ '9'.toNat := UInt32.le_iff_toNat_le.mp (isDigit_iff.mp h).2
  have hspan : '9'.toNat = '0'.toNat + 9 := by decide
  have hlt : c.toNat - '0'.toNat < 10 := by omega
  have hall : ∀ d < 10, Nat.digitChar d = Char.ofNat ('0'.toNat + d) := by decide
  refine ⟨?_, hlt⟩
  rw [hall _ hlt, Nat.add_sub_cancel' hlow, Char.ofNat_toNat]

/-- Digits behind a number that is not zero are its last digits. -/
theorem toDigits_ofDigitChars (hn : 0 < n) (h : ∀ c ∈ digits, isDigit c = true) :
    Nat.toDigits 10 (Nat.ofDigitChars 10 digits n) = Nat.toDigits 10 n ++ digits := by
  induction digits generalizing n with
  | nil => rw [Nat.ofDigitChars_nil, List.append_nil]
  | cons c cs ih =>
    rw [List.forall_mem_cons] at h
    obtain ⟨hc, hlt⟩ := digitChar_toNat h.1
    rw [Nat.ofDigitChars_cons, ih (by omega) h.2,
      ← Nat.toDigits_append_toDigits (by decide) hn hlt, Nat.toDigits_of_lt_base hlt, hc,
      List.append_assoc, List.singleton_append]

/-- **The digits of the number** that digits stand for are the digits without superfluous zeros. -/
theorem toDigits_eq_dropZeros (hne : digits ≠ []) (h : ∀ c ∈ digits, isDigit c = true) :
    Nat.toDigits 10 (Nat.ofDigitChars 10 digits 0) = dropZeros digits := by
  fun_induction dropZeros digits with
  | case1 c cs ih =>
    rw [List.forall_mem_cons] at h
    rw [Nat.ofDigitChars_cons]
    exact ih (List.cons_ne_nil c cs) h.2
  | case2 digits hzero =>
    obtain ⟨c, cs, rfl⟩ := List.exists_cons_of_ne_nil hne
    rw [List.forall_mem_cons] at h
    obtain ⟨hc, hlt⟩ := digitChar_toNat h.1
    rw [Nat.ofDigitChars_cons, Nat.mul_zero, Nat.zero_add]
    rcases Nat.eq_zero_or_pos (c.toNat - '0'.toNat) with hz | hpos
    · -- a zero with no superfluous one in front of it is the last digit
      rw [hz] at hc
      obtain rfl : '0' = c := hc
      cases cs with
      | nil => rfl
      | cons d ds => exact absurd rfl (hzero d ds)
    · rw [toDigits_ofDigitChars hpos h.2, Nat.toDigits_of_lt_base hlt, hc, List.singleton_append]

/-! ## Keys -/

/-- The text with the superfluous zeros of its digits left out. -/
def withoutZeros (text : String) : String :=
  String.ofList ((split text).1 ++ dropZeros (split text).2)

/-- **The key of an address** is each of its spellings without superfluous zeros. -/
theorem key_of_parse (h : parse text = .ok a) : a.key = withoutZeros text := by
  obtain ⟨letters, digits, htext, hnamed⟩ := parse_eq_ok_iff.mp h
  rw [← String.toList_inj, toList_key, withoutZeros, String.toList_ofList,
    split_of_append htext hnamed.isLetter hnamed.isDigit, ← hnamed.value_eq,
    ← hnamed.ofDigitChars_eq, Column.numeral_value hnamed.isLetter,
    toDigits_eq_dropZeros hnamed.digits_ne hnamed.isDigit]

example : withoutZeros "AB0070" = "AB70" := by decide

theorem parse_key_of_parse (h : parse text = .ok a) : parse a.key = .ok a :=
  parse_key_of_lt (col_lt_of_parse h)

/-! ## Canonical keys -/

theorem canonicalKey_canonicalKey (x : String) :
    canonicalKey (canonicalKey x) = canonicalKey x := by
  cases h : parse x with
  | ok a => rw [canonicalKey_of_parse h, canonicalKey_of_parse (parse_key_of_parse h)]
  | error fault => rw [canonicalKey_of_fault h, canonicalKey_of_fault h]

theorem parse_canonicalKey_iff : parse (canonicalKey x) = .ok a ↔ parse x = .ok a := by
  cases h : parse x with
  | ok b => rw [canonicalKey_of_parse h, parse_key_of_parse h]
  | error fault => rw [canonicalKey_of_fault h, h]

theorem key_eq_canonicalKey_iff (ha : a.col.toNat < Column.limit) :
    a.key = canonicalKey x ↔ parse x = .ok a := by
  constructor
  · intro hkey
    have hparse : parse a.key = .ok a := parse_key_of_lt ha
    cases h : parse x with
    | ok b =>
      rw [canonicalKey_of_parse h, key_inj] at hkey
      rw [hkey]
    | error fault =>
      rw [canonicalKey_of_fault h] at hkey
      rw [hkey, h] at hparse
      cases hparse
  · exact fun h ↦ (canonicalKey_of_parse h).symm

/-- The names are the same, or both are spellings of one address. -/
def SameCell (x y : String) : Prop := x = y ∨ ∃ a, parse x = .ok a ∧ parse y = .ok a

/-- **Canonical keys** of two names are the same when they name the same cell. -/
theorem canonicalKey_eq_iff : canonicalKey x = canonicalKey y ↔ SameCell x y := by
  constructor
  · intro hkey
    cases h : parse x with
    | ok a =>
      rw [canonicalKey_of_parse h, key_eq_canonicalKey_iff (col_lt_of_parse h)] at hkey
      exact Or.inr ⟨a, h, hkey⟩
    | error fault =>
      rw [canonicalKey_of_fault h] at hkey
      cases hy : parse y with
      | ok b =>
        rw [canonicalKey_of_parse hy] at hkey
        rw [hkey, parse_key_of_parse hy] at h
        cases h
      | error fault' =>
        rw [canonicalKey_of_fault hy] at hkey
        exact Or.inl hkey
  · rintro (rfl | ⟨a, hx, hy⟩)
    · rfl
    · rw [canonicalKey_of_parse hx, canonicalKey_of_parse hy]

end Address

end FormulaSheet
