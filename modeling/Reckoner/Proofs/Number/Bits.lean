import Mathlib
import Reckoner.Number.Rounding

/-!
Numbers and their bits. A number without a sign has the bits of its magnitude, and of two such
numbers one is equal to the other exactly if they are the same.
-/

namespace Reckoner

-- The number is a magnitude: its sign bit is not set, and it is not `NaN`.
def IsMagnitude (x : Float) : Prop :=
  x.isNaN = false ∧ x.toBits.toNat < 0x8000_0000_0000_0000

namespace Binary64

open Float.Model (Format)
open Float.Model.UnpackedFloat (isNaNBits unpackExponent unpackMantissa pack_unpack)

-- The bits of `NaN` stand above those of infinity.
theorem isNaNBits_iff (bits : BitVec 64) :
    @isNaNBits .binary64 bits = true ↔ infinity < bits.toNat % 0x8000_0000_0000_0000 := by
  have he : @unpackExponent .binary64 bits = -1#11 ↔
      bits.toNat / 0x10_0000_0000_0000 % 0x800 = 0x7FF := by
    rw [← BitVec.toNat_inj]
    simp [unpackExponent, Nat.shiftRight_eq_div_pow]
  have hm : @unpackMantissa .binary64 bits = 0#52 ↔ bits.toNat % 0x10_0000_0000_0000 = 0 := by
    rw [← BitVec.toNat_inj]
    simp [unpackMantissa]
  simp only [isNaNBits, ne_eq, he, hm, infinity, decide_eq_true_eq]
  omega

theorem toBits_ofBits {n : Nat} (h : n ≤ infinity) :
    (Float.ofBits (UInt64.ofNat n)).toBits.toNat = n := by
  simp only [infinity] at h
  have hb : (UInt64.ofNat n).toNat = n := UInt64.toNat_ofNat_of_lt' (h.trans_lt (by decide))
  have hn : ¬@isNaNBits .binary64 (UInt64.ofNat n).toBitVec = true := by
    rw [isNaNBits_iff, UInt64.toNat_toBitVec, hb]
    simp only [infinity]
    omega
  have hp := @pack_unpack .binary64 (UInt64.ofNat n).toBitVec (by decide)
  rw [if_neg hn] at hp
  exact (congrArg BitVec.toNat hp).trans hb

theorem isNaN_iff (x : Float) : x.isNaN = true ↔ x.toBits.toNat = 0x7FF8_0000_0000_0000 := by
  rw [Float.isNaN_eq_decide_eq_nan, decide_eq_true_eq, ← Float.toBits_inj, ← UInt64.toNat_inj]
  rfl

-- There is only one `NaN`.
theorem isNaN_iff_infinity_lt (x : Float) :
    x.isNaN = true ↔ infinity < x.toBits.toNat % 0x8000_0000_0000_0000 := by
  rw [isNaN_iff]
  constructor
  case mp =>
    intro h
    rw [h]
    decide
  case mpr =>
    intro h
    have hv := x.toModel.valid.eq_packedNaN
    have hn := (isNaNBits_iff x.toBits.toBitVec).mpr h
    simp only [isNaNBits, decide_eq_true_eq] at hn
    exact congrArg BitVec.toNat (hv hn.1 hn.2)

end Binary64

namespace IsMagnitude

open Binary64

variable {x y : Float}

theorem iff_le_infinity : IsMagnitude x ↔ x.toBits.toNat ≤ infinity := by
  have hn := isNaN_iff_infinity_lt x
  rw [IsMagnitude, ← Bool.not_eq_true, hn]
  simp only [infinity]
  omega

theorem ofBits {n : Nat} (h : n ≤ infinity) : IsMagnitude (Float.ofBits (UInt64.ofNat n)) :=
  iff_le_infinity.mpr ((toBits_ofBits h).symm ▸ h)

theorem eq_of_toBits (h : x.toBits.toNat = y.toBits.toNat) : x = y :=
  Float.toBits_inj.mp (UInt64.toNat_inj.mp h)

theorem ofBits_toBits (h : IsMagnitude x) : Float.ofBits (UInt64.ofNat x.toBits.toNat) = x :=
  eq_of_toBits (Binary64.toBits_ofBits (iff_le_infinity.mp h))

theorem toBits_lt_infinity (h : IsMagnitude x) (hi : x ≠ Float.inf) :
    x.toBits.toNat < infinity := by
  refine lt_of_le_of_ne (iff_le_infinity.mp h) fun he => hi ?_
  rw [← h.ofBits_toBits, he]
  rfl

theorem beq_iff (hx : IsMagnitude x) (hy : IsMagnitude y) : (x == y) = true ↔ x = y := by
  have hnan {z : Float} (hz : IsMagnitude z) : z ≠ Float.nan := by
    have := hz.1
    rwa [Float.isNaN_eq_decide_eq_nan, decide_eq_false_iff_not] at this
  have hneg {z : Float} (hz : IsMagnitude z) : z ≠ -0 := by
    rintro rfl
    exact absurd hz.2 (by decide)
  rw [Float.beq_iff_ne_nan_and_eq]
  constructor
  case mp =>
    rintro ⟨-, -, h | ⟨-, h⟩ | ⟨h, -⟩⟩
    · exact h
    · exact absurd h (hneg hy)
    · exact absurd h (hneg hx)
  case mpr => exact fun h => ⟨hnan hx, hnan hy, .inl h⟩

end IsMagnitude

end Reckoner
