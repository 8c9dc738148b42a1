import FormulaSheet.Number.Binary64
import Mathlib

/-!
# Doubles and their bits

A double is taken apart into a sign, a mantissa and an exponent, and put together again from these.
Going back and forth changes nothing but the bits of what is no number, and no double has any of
the bits that would be changed. A double is therefore known by its bits, and all bits up to those
of positive infinity are bits of a double.
-/

namespace FormulaSheet.Binary64

open Float.Model Float.Model.UnpackedFloat

/-! ## The three fields -/

theorem packComponents_unpack (b : BitVec Format.binary64.numBits) :
    packComponents Format.binary64 (Sign.ofBitVec (unpackSign b)) (unpackExponent b)
      (unpackMantissa b) = b := by
  have hsign : ∀ s : BitVec 1, (Sign.ofBitVec s).toBitVec = s := by decide
  rw [packComponents, hsign]
  simp only [unpackSign, unpackExponent, unpackMantissa, BitVec.extractLsb]
  ext i hi
  grind

theorem toNat_one_append (m : BitVec 52) : (1#1 ++ m).toNat = 2 ^ 52 + m.toNat := by
  rw [BitVec.toNat_append, ← Nat.shiftLeft_add_eq_or_of_lt m.isLt, Nat.shiftLeft_eq,
    BitVec.toNat_ofNat, Nat.mod_eq_of_lt (by decide), Nat.one_mul]

/-! ## Putting together -/

section

variable (s : Sign) {m : BitVec 52} {E : BitVec 11}

/-- Below the normal numbers the exponent is stored as zero. -/
theorem pack_subnormal (hpos : 0 < m.toNat) :
    UnpackedFloat.pack Format.binary64 (.finite s m.toNat (-1074) hpos)
      = packComponents Format.binary64 s 0 m := by
  have hbiased : ((-1074 : Int) + Format.binary64.exponentBias
      + Format.binary64.mantissaBitsWithoutImplicit).toNat = 1 := rfl
  have hlog : m.toNat.log2 < 52 := (Nat.log2_lt (Nat.pos_iff_ne_zero.mp hpos)).mpr m.isLt
  have hbits : m.toNat.log2 + 1 ≠ Format.binary64.mantissaBits := by
    change m.toNat.log2 + 1 ≠ 53
    omega
  rw [UnpackedFloat.pack]
  simp only [hbiased]
  rw [if_neg (by decide), if_neg hbits, BitVec.ofNat_toNat, BitVec.setWidth_eq]
  rfl

/-- A normal number keeps its exponent, and its mantissa loses the implicit bit. -/
theorem pack_normal (hones : E ≠ -1) (hpos : 0 < (1#1 ++ m).toNat) :
    UnpackedFloat.pack Format.binary64 (.finite s (1#1 ++ m).toNat ((E.toNat : Int) - 1075) hpos)
      = packComponents Format.binary64 s E m := by
  have hE : E.toNat < 2047 := by
    have hne : E.toNat ≠ 2047 := fun h ↦ hones (BitVec.toNat_inj.mp h)
    have := E.isLt
    omega
  have hbiased : ((E.toNat : Int) - 1075 + Format.binary64.exponentBias
      + Format.binary64.mantissaBitsWithoutImplicit).toNat = E.toNat := by
    change ((E.toNat : Int) - 1075 + (1023 : Nat) + (52 : Nat)).toNat = E.toNat
    omega
  have hlog : (1#1 ++ m).toNat.log2 = 52 := by
    have := m.isLt
    rw [toNat_one_append, Nat.log2_eq_iff (by omega)]
    omega
  rw [UnpackedFloat.pack]
  simp only [hbiased, hlog]
  rw [if_neg (by change ¬2048 ≤ E.toNat + 1; omega), if_pos (by decide), BitVec.ofNat_toNat,
    BitVec.setWidth_eq]
  congr 1
  rw [toNat_one_append, ← BitVec.toNat_inj, BitVec.toNat_ofNat, Nat.add_mod_left,
    Nat.mod_eq_of_lt m.isLt]

end

theorem pack_unpack {b : BitVec Format.binary64.numBits} (h : Format.binary64.Valid b) :
    UnpackedFloat.pack Format.binary64 (UnpackedFloat.unpack Format.binary64 b) = b := by
  have hfields := packComponents_unpack b
  rw [UnpackedFloat.unpack]
  dsimp only
  split
  -- all ones in the exponent: infinity, or no number
  next hexponent =>
    rw [hexponent] at hfields
    split
    next hmantissa =>
      rw [hmantissa] at hfields
      exact hfields
    next hmantissa => exact (h.eq_packedNaN hexponent hmantissa).symm
  next hones =>
    split
    -- no ones in it: zero, or below the normal numbers
    next hzero =>
      rw [hzero] at hfields ⊢
      split
      next hmantissa =>
        rw [hmantissa] at hfields
        exact hfields
      next => exact (pack_subnormal _ _).trans hfields
    next => exact (pack_normal _ hones _).trans hfields

/-! ## Doubles -/

/-- **A double is its bits.** -/
theorem ofBits_toBits (x : Float) : Float.ofBits x.toBits = x := by
  obtain ⟨bits, hvalid⟩ := x
  have hpack : UInt64.ofBitVec (UnpackedFloat.pack Format.binary64
      (UnpackedFloat.unpack Format.binary64 bits.toBitVec)) = bits :=
    congrArg UInt64.ofBitVec (pack_unpack hvalid)
  simp only [Float.ofBits, Float.toBits, Float.Model.ofBits, Float.Model.pack, hpack]

/-- What is no number lies above infinity, whatever its sign. -/
theorem mantissa_eq_zero {b : BitVec Format.binary64.numBits}
    (h : b.toNat % Nat.pow 2 63 ≤ infinity) (hones : unpackExponent b = -1#11) :
    unpackMantissa b = 0#52 := by
  have hexponent := congrArg BitVec.toNat hones
  rw [unpackExponent, BitVec.toNat_cast, BitVec.extractLsb_toNat, Nat.shiftRight_eq_div_pow]
    at hexponent
  rw [← BitVec.toNat_inj, unpackMantissa, BitVec.toNat_cast, BitVec.extractLsb_toNat,
    Nat.shiftRight_zero]
  change b.toNat / 2 ^ 52 % 2 ^ 11 = 2047 at hexponent
  change b.toNat % 2 ^ 52 = 0
  change b.toNat % 2 ^ 63 ≤ 2047 * 2 ^ 52 at h
  omega

theorem toBits_ofBits {b : UInt64} (h : b.toNat ≤ infinity) : (Float.ofBits b).toBits = b :=
  congrArg UInt64.ofBitVec <| pack_unpack ⟨fun hones hmantissa ↦
    absurd (mantissa_eq_zero (Nat.le_trans (Nat.mod_le _ _) h) hones) hmantissa⟩

/-! ## Patterns -/

theorem nearest_le_infinity (num den : Nat) : nearest num den ≤ infinity :=
  Nat.min_le_left _ _

theorem toNat_toBits_ofNat (n : Nat) : (ofNat n).toBits.toNat = nearest n 1 := by
  have hle := nearest_le_infinity n 1
  have hsize : (UInt64.ofNat (nearest n 1)).toNat = nearest n 1 :=
    UInt64.toNat_ofNat_of_lt' (Nat.lt_of_le_of_lt hle (by decide))
  rw [ofNat, toBits_ofBits (by rwa [hsize]), hsize]

theorem pattern_ofNat (n : Nat) : pattern (ofNat n) = nearest n 1 := by
  rw [pattern, toNat_toBits_ofNat]
  exact Nat.mod_eq_of_lt (Nat.lt_of_le_of_lt (nearest_le_infinity n 1) (by decide))

theorem isNegative_ofNat (n : Nat) : isNegative (ofNat n) = false := by
  rw [isNegative, toNat_toBits_ofNat, decide_eq_false_iff_not, Nat.not_le]
  exact Nat.lt_of_le_of_lt (nearest_le_infinity n 1) (by decide)

theorem eq_of_pattern_eq {x y : Float} (hx : isNegative x = false) (hy : isNegative y = false)
    (h : pattern x = pattern y) : x = y := by
  have hbits : ∀ z : Float, isNegative z = false → z.toBits.toNat = pattern z := fun z hz ↦ by
    rw [isNegative, decide_eq_false_iff_not, Nat.not_le] at hz
    exact (Nat.mod_eq_of_lt hz).symm
  have hsame : x.toBits.toNat = y.toBits.toNat := by rw [hbits x hx, hbits y hy, h]
  calc x = Float.ofBits x.toBits := (ofBits_toBits x).symm
    _ = Float.ofBits y.toBits := congrArg Float.ofBits (UInt64.toNat_inj.mp hsame)
    _ = y := ofBits_toBits y

/-! ## Equality -/

theorem compare_self {u : UnpackedFloat} (h : u ≠ .notANumber) : u.compare u = some .eq := by
  cases u with
  | notANumber => exact absurd rfl h
  | infinity s => cases s <;> rfl
  | zero s => rfl
  | finite s m e _ => cases s <;> simp [UnpackedFloat.compare]

theorem beq_self {x : Float} (h : pattern x ≤ infinity) : (x == x) = true := by
  have hunpack : UnpackedFloat.unpack Format.binary64 x.toBits.toBitVec ≠ .notANumber := by
    rw [UnpackedFloat.unpack]
    dsimp only
    split
    next hones =>
      rw [if_pos (mantissa_eq_zero h hones)]
      intro hnan
      cases hnan
    next =>
      split
      next =>
        split <;> intro hnan <;> cases hnan
      next =>
        intro hnan
        cases hnan
  change UnpackedFloat.beq (UnpackedFloat.unpack Format.binary64 x.toBits.toBitVec)
    (UnpackedFloat.unpack Format.binary64 x.toBits.toBitVec) = true
  rw [UnpackedFloat.beq, compare_self hunpack]
  rfl

end FormulaSheet.Binary64
