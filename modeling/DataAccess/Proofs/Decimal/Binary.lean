import Mathlib

/-!
# Bits of binary numbers

Whether a number is zero shows in its bits, and a finite number is neither infinite nor no number.
-/

namespace DataAccess.Decimal

open Float.Model (UnpackedFloat Format)

variable {x y : Float}

theorem isNaN_eq_false (finite : x.isFinite) : x.isNaN = false := by
  unfold Float.isFinite Float.Model.isFinite at finite
  unfold Float.isNaN Float.Model.isNaN
  cases unpacked : x.toModel.unpack <;> simp_all [UnpackedFloat.isFinite, UnpackedFloat.isNaN]

theorem isInf_eq_false (finite : x.isFinite) : x.isInf = false := by
  unfold Float.isFinite Float.Model.isFinite at finite
  unfold Float.isInf Float.Model.isInf
  cases unpacked : x.toModel.unpack <;> simp_all [UnpackedFloat.isFinite, UnpackedFloat.isInf]

theorem eq_of_toBits_toNat_eq (h : x.toBits.toNat = y.toBits.toNat) : x = y := by
  rw [← Float.ofBits_toBits x, UInt64.toNat_inj.mp h, Float.ofBits_toBits]

theorem beq_zero_iff_unpack : (x == 0) = true ↔ ∃ sign, x.toModel.unpack = .zero sign := by
  have zero : (0 : Float).toModel.unpack = .zero .positive := rfl
  change x.toModel.unpack.beq (0 : Float).toModel.unpack = true ↔ _
  rw [zero]
  cases x.toModel.unpack with
  | notANumber => simp [UnpackedFloat.beq, UnpackedFloat.compare]
  | infinity sign | zero sign | finite sign =>
    cases sign <;> simp [UnpackedFloat.beq, UnpackedFloat.compare]

/-- A number is zero if all its bits but the sign are. -/
theorem unpack_eq_zero_iff :
    (∃ sign, x.toModel.unpack = .zero sign) ↔ x.toBits.toNat % 0x8000000000000000 = 0 := by
  have exponentZero : @UnpackedFloat.unpackExponent Format.binary64
      x.toModel.toBits.toBitVec = 0#11 ↔ x.toBits.toNat / 2 ^ 52 % 2 ^ 11 = 0 := by
    rw [← BitVec.toNat_inj, UnpackedFloat.unpackExponent, BitVec.toNat_cast,
      BitVec.extractLsb_toNat, Nat.shiftRight_eq_div_pow]
    rfl
  have mantissaZero : @UnpackedFloat.unpackMantissa Format.binary64
      x.toModel.toBits.toBitVec = 0#52 ↔ x.toBits.toNat % 2 ^ 52 = 0 := by
    rw [← BitVec.toNat_inj, UnpackedFloat.unpackMantissa, BitVec.toNat_cast,
      BitVec.extractLsb_toNat]
    rfl
  have parts : x.toBits.toNat % 0x8000000000000000 = 0 ↔
      x.toBits.toNat / 2 ^ 52 % 2 ^ 11 = 0 ∧ x.toBits.toNat % 2 ^ 52 = 0 := by omega
  rw [parts, ← exponentZero, ← mantissaZero]
  unfold Float.Model.unpack UnpackedFloat.unpack
  dsimp only
  generalize @UnpackedFloat.unpackExponent Format.binary64 x.toModel.toBits.toBitVec =
    exponent
  split
  · rename_i largest
    have nonzero : exponent ≠ 0#11 := by
      rw [largest]
      decide
    split <;> simp [nonzero]
  · split
    · rename_i least
      split
      · rename_i none
        simp [least, none]
      · rename_i some
        simp [some]
    · rename_i nonzero
      simp [nonzero]

theorem beq_zero_iff : (x == 0) = true ↔ x.toBits.toNat % 0x8000000000000000 = 0 := by
  rw [beq_zero_iff_unpack, unpack_eq_zero_iff]

end DataAccess.Decimal
