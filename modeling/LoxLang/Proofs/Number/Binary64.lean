import Mathlib
import LoxLang.Number.Binary64

/-!
# Patterns and exact quotients

A number that is made of a sign and a finite field is read as that sign and that field
(`read_ofField`): the pattern of a number is kept, other than that of no number. And where a
quotient is a finite magnitude itself, rounding finds the field of that magnitude
(`nearestField_exact`), so what is written exactly is read exactly.
-/

namespace LoxLang

namespace Binary64

open Float.Model Float.Model.UnpackedFloat

/-- Neither an infinity nor no number. -/
def IsFinite (number : Float) : Prop :=
  fieldOf number < infinityField

instance (number : Float) : Decidable (IsFinite number) :=
  inferInstanceAs (Decidable (fieldOf number < infinityField))

/-! ### Patterns -/

/-- The pattern of a number is the one that it was made of. The library's `pack_unpack` says so of
any format; only the whole library contains it, so this module imports no less. -/
theorem toBits_ofBits (bits : UInt64) (number : bits.toNat % signWeight ≤ infinityField) :
    (Float.ofBits bits).toBits = bits := by
  have exponent : (@unpackExponent Format.binary64 bits.toBitVec).toNat =
      bits.toNat / 2 ^ 52 % 2 ^ 11 := by
    simp only [unpackExponent, BitVec.toNat_cast, BitVec.extractLsb_toNat,
      Nat.shiftRight_eq_div_pow]
    rfl
  have mantissa : (@unpackMantissa Format.binary64 bits.toBitVec).toNat =
      bits.toNat % 2 ^ 52 := by
    simp only [unpackMantissa, BitVec.toNat_cast, BitVec.extractLsb_toNat, Nat.shiftRight_zero]
    rfl
  have bounded : bits.toNat % 2 ^ 63 ≤ 2047 * 2 ^ 52 := number
  have packed := @pack_unpack Format.binary64 bits.toBitVec (by decide)
  refine congrArg UInt64.ofBitVec (packed.trans (if_neg ?_))
  rw [isNaNBits, decide_eq_true_iff]
  rintro ⟨full, filled⟩
  refine filled (BitVec.eq_of_toNat_eq ?_)
  rw [mantissa]
  have weight := exponent.symm.trans (congrArg BitVec.toNat full)
  change _ = 2047 at weight
  change _ = 0
  omega

/-- The pattern of the number with a given sign and field. -/
theorem toNat_toBits_ofField (negative : Bool) {field : Nat} (bounded : field ≤ infinityField) :
    (ofField negative field).toBits.toNat = if negative then signWeight + field else field := by
  have small : field ≤ 2047 * 2 ^ 52 := bounded
  have weight : signWeight = 2 ^ 63 := rfl
  have bits : (UInt64.ofNat (if negative then signWeight + field else field)).toNat =
      if negative then signWeight + field else field := by
    rw [UInt64.toNat_ofNat', Nat.mod_eq_of_lt (by split <;> omega)]
  have least : infinityField = 2047 * 2 ^ 52 := rfl
  rw [ofField, toBits_ofBits, bits]
  rw [bits, weight]
  split <;> omega

theorem fieldOf_ofField (negative : Bool) {field : Nat} (bounded : field ≤ infinityField) :
    fieldOf (ofField negative field) = field := by
  have small : field ≤ 2047 * 2 ^ 52 := bounded
  have weight : signWeight = 2 ^ 63 := rfl
  rw [fieldOf, toNat_toBits_ofField negative bounded, weight]
  split <;> omega

theorem isNegative_ofField (negative : Bool) {field : Nat} (bounded : field ≤ infinityField) :
    isNegative (ofField negative field) = negative := by
  have small : field ≤ 2047 * 2 ^ 52 := bounded
  have weight : signWeight = 2 ^ 63 := rfl
  rw [isNegative, toNat_toBits_ofField negative bounded, weight]
  cases negative with
  | false => simpa using Nat.lt_of_le_of_lt small (by decide)
  | true => simp

/-- A finite number is read as what it was made of. -/
theorem read_ofField (negative : Bool) {field : Nat} (finite : field < infinityField) :
    read (ofField negative field) = .finite negative field := by
  rw [read, fieldOf_ofField negative (Nat.le_of_lt finite),
    isNegative_ofField negative (Nat.le_of_lt finite)]
  exact if_pos finite

/-! ### Exact quotients -/

theorem roundHalfEven_mul {quotient denominator : Nat} (positive : 0 < denominator) :
    roundHalfEven (denominator * quotient) denominator = quotient := by
  rw [roundHalfEven, Nat.mul_div_cancel_left quotient positive, Nat.mul_mod_right]
  exact if_pos positive

/-- The steps of a field are a mantissa of 53 bits and a shift, and a shorter mantissa only if
nothing is shifted. The shift counts whole exponents of the field. -/
theorem steps_normalized (field : Nat) :
    ∃ mantissa, steps field = mantissa * 2 ^ ((steps field).log2 - 52) ∧
      ((steps field).log2 - 52) * leastNormal + mantissa = field := by
  have least : leastNormal = 2 ^ 52 := rfl
  by_cases subnormal : field < leastNormal
  case pos =>
    have same : steps field = field := if_pos subnormal
    have unshifted : field.log2 - 52 = 0 := by
      rcases Nat.eq_zero_or_pos field with rfl | positive
      · rfl
      · have short := (Nat.log2_lt (Nat.ne_of_gt positive)).mpr (least ▸ subnormal)
        omega
    rw [same, unshifted]
    exact ⟨field, by simp, by simp⟩
  case neg =>
    have same : steps field = (field % leastNormal + leastNormal) * 2 ^ (field / leastNormal - 1) :=
      if_neg subnormal
    have small : field % leastNormal < leastNormal := Nat.mod_lt _ (by decide)
    have bits : (steps field).log2 = 52 + (field / leastNormal - 1) := by
      have nonzero : field % leastNormal + leastNormal ≠ 0 := by omega
      rw [same, Nat.log2_eq_iff (Nat.mul_ne_zero nonzero (by positivity)), Nat.add_right_comm 52,
        Nat.pow_add, Nat.pow_add]
      constructor
      · exact Nat.mul_le_mul_right _ (by omega)
      · exact Nat.mul_lt_mul_of_pos_right (by omega) (by positivity)
    have shift : (steps field).log2 - 52 = field / leastNormal - 1 := by omega
    have whole : 1 ≤ field / leastNormal :=
      (Nat.one_le_div_iff (by decide)).mpr (Nat.le_of_not_lt subnormal)
    have parts := Nat.div_add_mod field leastNormal
    rw [shift]
    refine ⟨field % leastNormal + leastNormal, same, ?_⟩
    rw [least] at parts whole ⊢
    omega

/-- A quotient that is a finite magnitude is not rounded. -/
theorem nearestField_exact {numerator denominator field : Nat} (positive : 0 < denominator)
    (finite : field < infinityField)
    (exact : numerator * stepsPerUnit = denominator * steps field) :
    nearestField numerator denominator = field := by
  obtain ⟨mantissa, same, parts⟩ := steps_normalized field
  have quotient : denominator * steps field / denominator = steps field :=
    Nat.mul_div_cancel_left _ positive
  have rounded (shift : Nat) :
      roundHalfEven (denominator * (mantissa * 2 ^ shift)) (denominator * 2 ^ shift) =
        mantissa := by
    rw [Nat.mul_comm mantissa, ← Nat.mul_assoc]
    exact roundHalfEven_mul (by positivity)
  have nearest := rounded ((steps field).log2 - 52)
  rw [← same] at nearest
  simp only [nearestField, exact, quotient]
  change min infinityField (((steps field).log2 - 52) * leastNormal +
    roundHalfEven (denominator * steps field) (denominator * 2 ^ ((steps field).log2 - 52))) = field
  rw [nearest, parts]
  exact Nat.min_eq_right (Nat.le_of_lt finite)

end Binary64

end LoxLang
