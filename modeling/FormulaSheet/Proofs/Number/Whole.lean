import FormulaSheet.Number.Shortest
import Mathlib.Algebra.Group.Nat.Defs
import Mathlib.Data.Nat.Log

/-!
# Whole doubles

A whole double is one whose value, counted in units of `2 ^ (-1074)`, is a multiple of `2 ^ 1074`.
Rounding a natural number leads to a whole double or to infinity, and comes back to a whole double
from its value. Its shortest decimal has no places behind the point, since the grid of the whole
numbers holds it and is reached before any finer grid; what the decimal reads back as tells that no
other double has such a decimal.
-/

namespace FormulaSheet

namespace Binary64

variable {bits n q shift num den : Nat}

/-- The places of the least unit behind the binary point. -/
def places : Nat := 1074

/-- The number one, in units. -/
def one : Nat := 2 ^ places

theorem pow_eq_one : Nat.pow 2 1074 = one := by
  have hplaces : 1074 = places := rfl
  rw [hplaces, one]
  -- a variable in place of the number, so that the power is not computed
  generalize places = k
  rfl

theorem one_pos : 0 < one := Nat.two_pow_pos places

/-! ## Rounding -/

theorem roundQuotient_mul (q : Nat) (hden : 0 < den) : roundQuotient (q * den) den = q := by
  rw [roundQuotient, Nat.mul_mod_left, Nat.mul_zero, if_pos hden, Nat.mul_div_cancel q hden]

theorem roundQuotient_bounds (num den : Nat) :
    num / den ≤ roundQuotient num den ∧ roundQuotient num den ≤ num / den + 1 := by
  rw [roundQuotient]
  split
  · omega
  · split <;> omega

theorem units_of_lt (h : bits < 2 ^ 52) : units bits = bits := by
  simp only [units, Nat.pow_eq]
  rw [Nat.div_eq_of_lt h, if_pos rfl, Nat.mod_eq_of_lt h]

/-- A mantissa that is as long as it can be, unless there are no places behind it. -/
structure IsMantissa (shift q : Nat) : Prop where
  /-- It has at least fifty-three bits, or ends with the least unit. -/
  low : 2 ^ 52 ≤ q ∨ shift = 0
  /-- It has no more, but may be rounded up. -/
  high : q ≤ 2 ^ 53

/-- The value of a pattern that is given by a mantissa and the places behind it. A mantissa that was
rounded up to one bit too many runs over into the exponent, as it should. -/
theorem IsMantissa.units_eq (h : IsMantissa shift q) :
    units (shift * Nat.pow 2 52 + q) = q * 2 ^ shift := by
  -- below the normal numbers, a normal number, and one that runs over
  rcases Nat.lt_or_ge q (2 ^ 52) with hlt | hge
  · obtain rfl := h.low.resolve_left (Nat.not_le.mpr hlt)
    rw [Nat.zero_mul, Nat.zero_add, units_of_lt hlt, Nat.pow_zero, Nat.mul_one]
  simp only [units, Nat.pow_eq]
  rcases Nat.lt_or_eq_of_le h.high with hlt | rfl
  · have hexponent : (shift * 2 ^ 52 + q) / 2 ^ 52 = shift + 1 := by omega
    have hfraction : (shift * 2 ^ 52 + q) % 2 ^ 52 = q - 2 ^ 52 := by omega
    rw [hexponent, hfraction, if_neg (Nat.succ_ne_zero _), Nat.add_sub_cancel,
      Nat.add_sub_cancel' hge]
  · have hexponent : (shift * 2 ^ 52 + 2 ^ 53) / 2 ^ 52 = shift + 2 := by omega
    have hfraction : (shift * 2 ^ 52 + 2 ^ 53) % 2 ^ 52 = 0 := by omega
    rw [hexponent, hfraction, if_neg (Nat.succ_ne_zero _), Nat.add_zero]
    change 2 ^ 52 * 2 ^ (shift + 1) = 2 ^ 53 * 2 ^ shift
    rw [Nat.pow_succ]
    omega

theorem exists_isMantissa (bits : Nat) :
    ∃ shift q, bits = shift * Nat.pow 2 52 + q ∧ IsMantissa shift q ∧ q < 2 ^ 53 := by
  rw [Nat.pow_eq]
  rcases Nat.lt_or_ge bits (2 ^ 52) with hlt | hge
  · exact ⟨0, bits, by omega, ⟨.inr rfl, by omega⟩, by omega⟩
  · exact ⟨bits / 2 ^ 52 - 1, 2 ^ 52 + bits % 2 ^ 52, by omega, ⟨.inl (by omega), by omega⟩,
      by omega⟩

theorem IsMantissa.log2_eq (h : IsMantissa shift q) (hhigh : q < 2 ^ 53) :
    Nat.log2 (q * 2 ^ shift) - 52 = shift := by
  rcases Nat.eq_zero_or_pos q with rfl | hpos
  · obtain rfl := h.low.resolve_left (by decide)
    rfl
  · have hne : q * 2 ^ shift ≠ 0 := (Nat.mul_pos hpos (Nat.two_pow_pos shift)).ne'
    have hlt : Nat.log2 (q * 2 ^ shift) < 53 + shift := by
      rw [Nat.log2_lt hne, Nat.pow_add]
      exact Nat.mul_lt_mul_of_pos_right hhigh (Nat.two_pow_pos shift)
    rcases h.low with hlow | rfl
    · have hle : 52 + shift ≤ Nat.log2 (q * 2 ^ shift) := by
        rw [Nat.le_log2 hne, Nat.pow_add]
        exact Nat.mul_le_mul_right _ hlow
      omega
    · omega

/-- Cut off behind fifty-three bits and rounded, a number is a mantissa. -/
theorem isMantissa_roundQuotient (scaled : Nat) :
    IsMantissa (scaled.log2 - 52) (roundQuotient scaled (2 ^ (scaled.log2 - 52))) := by
  obtain ⟨hlow, hhigh⟩ := roundQuotient_bounds scaled (2 ^ (scaled.log2 - 52))
  constructor
  · by_cases hshift : scaled.log2 - 52 = 0
    · exact .inr hshift
    · have hne : scaled ≠ 0 := by
        rintro rfl
        exact hshift rfl
      refine .inl (Nat.le_trans ?_ hlow)
      rw [Nat.le_div_iff_mul_le (Nat.two_pow_pos _), ← Nat.pow_add,
        Nat.add_sub_cancel' (by omega)]
      exact Nat.log2_self_le hne
  · refine Nat.le_trans hhigh (Nat.succ_le_of_lt ?_)
    rw [Nat.div_lt_iff_lt_mul (Nat.two_pow_pos _), ← Nat.pow_add]
    exact Nat.lt_of_lt_of_le Nat.lt_log2_self (Nat.pow_le_pow_right (by decide) (by omega))

theorem dvd_roundQuotient_mul {k scaled : Nat} (h : 2 ^ k ∣ scaled) :
    2 ^ k ∣ roundQuotient scaled (2 ^ shift) * 2 ^ shift := by
  rcases Nat.le_total k shift with hle | hle
  · exact Nat.dvd_mul_left_of_dvd (Nat.pow_dvd_pow 2 hle) _
  · -- nothing is cut off, so nothing is rounded
    obtain ⟨q, hq⟩ := Nat.dvd_trans (Nat.pow_dvd_pow 2 hle) h
    rw [Nat.mul_comm] at hq
    rw [hq, roundQuotient_mul q (Nat.two_pow_pos shift), ← hq]
    exact h

theorem nearest_one (n : Nat) : nearest n 1 = min infinity (((n * one).log2 - 52) * Nat.pow 2 52
    + roundQuotient (n * one) (2 ^ ((n * one).log2 - 52))) := by
  rw [nearest, pow_eq_one, Nat.div_one, Nat.one_mul]
  rfl

/-- **Reading a value.** The double nearest to the value of a double is this double. -/
theorem nearest_eq (hfinite : bits < infinity) (h : units bits = n * one) :
    nearest n 1 = bits := by
  obtain ⟨shift, q, hbits, hmantissa, hhigh⟩ := exists_isMantissa bits
  have hunits : units bits = q * 2 ^ shift := hbits ▸ hmantissa.units_eq
  rw [nearest_one, ← h, hunits, hmantissa.log2_eq hhigh,
    roundQuotient_mul q (Nat.two_pow_pos shift), ← hbits]
  exact Nat.min_eq_right hfinite.le

theorem nearest_zero : nearest 0 1 = 0 :=
  nearest_eq (by decide) (by rw [units_of_lt (by decide), Nat.zero_mul])

/-- **Rounding whole numbers.** A natural number is rounded to a whole double, or to infinity. -/
theorem dvd_units_nearest (h : nearest n 1 < infinity) :
    one ∣ units (nearest n 1) := by
  have hwhole : one ∣ n * one := Nat.dvd_mul_left _ _
  rw [nearest_one] at h ⊢
  generalize n * one = scaled at h hwhole ⊢
  have hmantissa := isMantissa_roundQuotient scaled
  generalize scaled.log2 - 52 = shift at h hmantissa ⊢
  rw [Nat.min_eq_right (by omega), hmantissa.units_eq]
  exact dvd_roundQuotient_mul hwhole

end Binary64

namespace Decimal

variable {tie : TieRule} {bits : Nat} {e : Int} {d : Decimal}

/-! ## Shortest decimals -/

theorem of_onGrid (h : onGrid tie bits e = some d) : d.exponent = e ∧ d.pattern = bits := by
  rw [onGrid] at h
  have hmem := List.mem_of_find?_eq_some h
  obtain ⟨digits, -, rfl⟩ := List.mem_map.mp hmem
  have hpattern := List.find?_some h
  exact ⟨rfl, beq_iff_eq.mp hpattern⟩

theorem onGrid_zero (tie : TieRule) (hfinite : bits < Binary64.infinity)
    (h : Binary64.one ∣ Binary64.units bits) : ∃ d, onGrid tie bits 0 = some d := by
  obtain ⟨n, hn⟩ := h
  rw [Nat.mul_comm] at hn
  have hlow : Binary64.units bits * Nat.pow 10 (-0 : Int).toNat
      / (Nat.pow 2 1074 * Nat.pow 10 (0 : Int).toNat) = n := by
    have hneg : Nat.pow 10 (-0 : Int).toNat = 1 := rfl
    have hzero : Nat.pow 10 (0 : Int).toNat = 1 := rfl
    rw [Binary64.pow_eq_one, hneg, hzero, Nat.mul_one, Nat.mul_one, hn,
      Nat.mul_div_cancel n Binary64.one_pos]
  have hpattern : (⟨n, 0⟩ : Decimal).pattern = bits := by
    have hnearest := Binary64.nearest_eq hfinite hn
    rw [pattern]
    exact (congrArg (Binary64.nearest · 1) (Nat.mul_one n)).trans hnearest
  rw [← Option.isSome_iff_exists, onGrid, List.find?_isSome, hlow]
  refine ⟨⟨n, 0⟩, List.mem_map.mpr ⟨n, ?_, rfl⟩, beq_iff_eq.mpr hpattern⟩
  split
  · exact List.mem_cons_of_mem _ List.mem_cons_self
  · exact List.mem_cons_self

/-- A decimal without places behind the point was found on its grid. -/
theorem pattern_descend {n : Nat} (h : 0 ≤ (descend tie bits n).exponent) :
    (descend tie bits n).pattern = bits := by
  induction n with
  | zero =>
    rw [descend] at h
    exact absurd h (of_decide_eq_false rfl)
  | succ n ih =>
    rw [descend] at h ⊢
    cases hgrid : onGrid tie bits ((n + 1 : Nat) - 1074) with
    | none =>
      rw [hgrid, Option.getD_none] at h
      exact ih h
    | some d => exact (of_onGrid hgrid).2

theorem exponent_descend (hfinite : bits < Binary64.infinity)
    (h : Binary64.one ∣ Binary64.units bits) {n : Nat} (hn : 1074 ≤ n) :
    0 ≤ (descend tie bits n).exponent := by
  induction n, hn using Nat.le_induction with
  | base =>
    obtain ⟨d, hd⟩ := onGrid_zero tie hfinite h
    have hgrid : onGrid tie bits ((1073 + 1 : Nat) - 1074) = some d := hd
    rw [descend, hgrid, Option.getD_some, (of_onGrid hd).1]
  | succ n hn ih =>
    rw [descend]
    cases hgrid : onGrid tie bits ((n + 1 : Nat) - 1074) with
    | none => exact ih
    | some d =>
      rw [Option.getD_some, (of_onGrid hgrid).1]
      omega

theorem startGrid_nonneg (h : Binary64.one ≤ Binary64.units bits) : 0 ≤ startGrid bits := by
  have hne : Binary64.units bits ≠ 0 := Nat.ne_zero_of_lt (Nat.lt_of_lt_of_le Binary64.one_pos h)
  have hlog : Binary64.places ≤ (Binary64.units bits).log2 := (Nat.le_log2 hne).mpr h
  have hplaces : Binary64.places = 1074 := rfl
  rw [startGrid]
  omega

theorem nearest_shortest (h : 0 ≤ (shortest tie bits).exponent) :
    Binary64.nearest ((shortest tie bits).digits * Nat.pow 10 (shortest tie bits).exponent.toNat) 1
      = bits := by
  have hpattern : (shortest tie bits).pattern = bits := pattern_descend h
  rwa [pattern, Int.toNat_of_nonpos (Int.neg_nonpos_of_nonneg h)] at hpattern

/-- **Shortest decimals of whole doubles.** The shortest decimal of a double has no places behind
the point exactly if the double is whole. -/
theorem exponent_shortest_nonneg_iff (tie : TieRule) (hfinite : bits < Binary64.infinity)
    (hne : bits ≠ 0) :
    0 ≤ (shortest tie bits).exponent ↔ Binary64.one ∣ Binary64.units bits := by
  constructor
  · intro h
    have hnearest := nearest_shortest h
    rw [← hnearest] at hfinite ⊢
    exact Binary64.dvd_units_nearest hfinite
  · intro h
    have hunits : Binary64.units bits ≠ 0 := fun hzero ↦ hne (by
      rw [← Binary64.nearest_eq hfinite (hzero.trans (Nat.zero_mul _).symm), Binary64.nearest_zero])
    have hgrid := startGrid_nonneg (Nat.le_of_dvd (Nat.pos_of_ne_zero hunits) h)
    exact exponent_descend hfinite h (by omega)

end Decimal

end FormulaSheet
