import Mathlib
import Reckoner.Number.Shortest
import Reckoner.Proofs.Number.Rounding

/-!
Decimals and the values they are read as. The tests on the exponent alone do not change the value,
so decimals of the same value have the same bits. The decimal that stands for a value in writing is
read back as this value.
-/

namespace Reckoner

theorem Binary64.two_pow_le_ten_pow : 2 ^ 1024 ≤ 10 ^ 309 := by
  decide +kernel

namespace Decimal

variable {d d' : Decimal}

theorem denominator_pos (d : Decimal) : 0 < d.denominator := by
  rw [denominator, Nat.pow_eq]
  positivity

theorem nearest_of_overflows (h : d.Overflows) :
    Binary64.nearest d.numerator d.denominator = Binary64.infinity := by
  obtain ⟨hc, he⟩ := h
  have hden : d.denominator = 1 := by
    rw [denominator, Int.toNat_of_nonpos (by omega), Nat.pow_eq, pow_zero]
  refine Binary64.nearest_eq_infinity d.denominator_pos ?_
  calc
    d.denominator * 2 ^ 1024 = 2 ^ 1024 := by rw [hden, Nat.one_mul]
    _ ≤ 10 ^ 309 := Binary64.two_pow_le_ten_pow
    _ ≤ 10 ^ d.exponent.toNat := pow_le_pow_right₀ (by decide) (by omega)
    _ ≤ d.numerator := Nat.le_mul_of_pos_left _ (Nat.pos_of_ne_zero hc)

theorem nearest_of_vanishes (h : d.Vanishes) :
    Binary64.nearest d.numerator d.denominator = 0 := by
  rcases h with hc | he
  case inl => rw [numerator, hc, Nat.zero_mul, Binary64.nearest, if_pos rfl]
  case inr =>
    have hnum : d.numerator = d.coefficient := by
      rw [numerator, Int.toNat_of_nonpos (by omega), Nat.pow_eq, pow_zero, Nat.mul_one]
    refine Binary64.nearest_eq_zero ?_
    calc
      2 * (d.numerator * 2 ^ 1074) = d.coefficient * 2 ^ 1075 := by
        rw [hnum, Nat.mul_left_comm, ← pow_succ']
      _ < 2 ^ (d.coefficient.log2 + 1) * 2 ^ 1075 :=
        Nat.mul_lt_mul_of_pos_right Nat.lt_log2_self (by positivity)
      _ = 2 ^ (d.coefficient.log2 + 1 + 1075) := (pow_add ..).symm
      _ ≤ 2 ^ (3 * (-d.exponent).toNat) := pow_le_pow_right₀ one_le_two (by omega)
      _ = 8 ^ (-d.exponent).toNat := pow_mul ..
      _ ≤ d.denominator := Nat.pow_le_pow_left (by decide) _

theorem bits_eq_nearest (d : Decimal) :
    d.bits = Binary64.nearest d.numerator d.denominator := by
  unfold bits
  split
  case isTrue h => exact (nearest_of_overflows h).symm
  case isFalse =>
    split
    case isTrue h => exact (nearest_of_vanishes h).symm
    case isFalse => rfl

theorem bits_congr (h : d.numerator * d'.denominator = d'.numerator * d.denominator) :
    d.bits = d'.bits := by
  rw [bits_eq_nearest, bits_eq_nearest]
  exact Binary64.nearest_congr d.denominator_pos d'.denominator_pos h

-- A decimal that is as large as the power of two behind the largest value.
theorem bits_eq_infinity (h : d.denominator * 2 ^ 1024 ≤ d.numerator) :
    d.bits = Binary64.infinity := by
  rw [bits_eq_nearest, Binary64.nearest_eq_infinity d.denominator_pos h]

theorem bits_le_infinity (d : Decimal) : d.bits ≤ Binary64.infinity := by
  unfold bits Binary64.nearest
  split
  case isTrue => exact le_rfl
  case isFalse =>
    split
    case isTrue => exact Nat.zero_le _
    case isFalse =>
      split
      case isTrue => exact Nat.zero_le _
      case isFalse => exact Nat.min_le_right ..

-- A zero at the end of the coefficient is worth one in the exponent.
theorem bits_shift (c : Nat) (e : Int) : bits ⟨c * 10, e⟩ = bits ⟨c, e + 1⟩ := by
  refine bits_congr ?_
  simp only [numerator, denominator, Nat.pow_eq]
  rcases lt_or_ge e 0 with he | he
  case inl =>
    rw [show (-e).toNat = (-(e + 1)).toNat + 1 by omega, show e.toNat = 0 by omega,
      show (e + 1).toNat = 0 by omega, Nat.pow_succ]
    ring
  case inr =>
    rw [show (e + 1).toNat = e.toNat + 1 by omega, show (-e).toNat = 0 by omega,
      show (-(e + 1)).toNat = 0 by omega, Nat.pow_succ]
    ring

theorem bits_stripped (d : Decimal) : d.stripped.bits = d.bits := by
  fun_induction stripped d with
  | case1 d h ih =>
    have hc : d.coefficient / 10 * 10 = d.coefficient :=
      Nat.div_mul_cancel (Nat.dvd_of_mod_eq_zero h.2)
    rw [ih, ← bits_shift, hc]
  | case2 d h => rfl

end Decimal

namespace Binary64

variable {bits : Nat}

theorem bits_of_neighbour? {n : Nat} {d : Decimal} (h : neighbour? bits n = some d) :
    d.bits = bits := by
  unfold neighbour? at h
  grind

theorem bits_exact (h : bits < infinity) : (exact bits).bits = bits := by
  rw [Decimal.bits_eq_nearest]
  conv_rhs => rw [← nearest_value h]
  refine nearest_congr (Decimal.denominator_pos _) ?_ ?_
  · rw [denominator, Nat.pow_eq]
    positivity
  · have hz : (min (exponent bits) 0).toNat = 0 := by omega
    have hn : (-min (exponent bits) 0).toNat = (-exponent bits).toNat := by omega
    simp only [Decimal.numerator, Decimal.denominator, exact, numerator, denominator, Nat.pow_eq,
      hz, hn, show (10 : Nat) = 2 * 5 from rfl, Nat.mul_pow]
    ring

-- Whether or not some neighbour has few enough digits, the decimal is read back as the value.
theorem bits_shortest (h : bits < infinity) : (shortest bits).bits = bits := by
  unfold shortest
  split
  case isTrue hz => rw [hz]; rfl
  case isFalse =>
    rw [Decimal.bits_stripped]
    cases hf : (List.range 17).findSome? fun n => neighbour? bits (n + 1) with
    | none => exact bits_exact h
    | some d =>
      obtain ⟨n, -, hn⟩ := List.exists_of_findSome?_eq_some hf
      exact bits_of_neighbour? hn

end Binary64

end Reckoner
