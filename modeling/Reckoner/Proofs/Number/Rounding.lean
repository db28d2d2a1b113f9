import Mathlib
import Reckoner.Number.Rounding

/-!
Rounding to binary64. What a fraction is rounded to depends on its value only, not on how it is
written. The values of binary64 itself are kept. Fractions that are too large become infinity, and
those below half of the least positive value become zero.
-/

namespace Reckoner

variable {num den num' den' : Nat}

theorem roundQuotient_mul_left {k : Nat} (hk : 0 < k) (num den : Nat) :
    roundQuotient (k * num) (k * den) = roundQuotient num den := by
  have hr : 2 * (k * (num % den)) = k * (2 * (num % den)) := Nat.mul_left_comm ..
  simp only [roundQuotient, Nat.mul_div_mul_left _ _ hk, Nat.mul_mod_mul_left, hr,
    Nat.mul_lt_mul_left hk, Nat.mul_right_inj hk.ne']

theorem roundQuotient_congr (hd : 0 < den) (hd' : 0 < den') (h : num * den' = num' * den) :
    roundQuotient num den = roundQuotient num' den' := by
  rw [← roundQuotient_mul_left hd' num den, ← roundQuotient_mul_left hd num' den',
    Nat.mul_comm den' num, h, Nat.mul_comm num', Nat.mul_comm den' den]

theorem roundQuotient_mul_self (n : Nat) (hd : 0 < den) : roundQuotient (n * den) den = n := by
  simp [roundQuotient, Nat.mul_div_cancel n hd, hd]

theorem roundQuotient_eq_zero (h : 2 * num < den) : roundQuotient num den = 0 := by
  have hlt : num < den := by omega
  simp [roundQuotient, Nat.div_eq_of_lt hlt, Nat.mod_eq_of_lt hlt, h]

theorem div_le_roundQuotient (num den : Nat) : num / den ≤ roundQuotient num den := by
  simp only [roundQuotient]
  split <;> omega

-- The logarithm is the exponent of the last power that is not above.
theorem log_eq_of_le_of_lt {k : Int} {q : ℚ} (hl : (2 : ℚ) ^ k ≤ q) (hu : q < 2 ^ (k + 1)) :
    Int.log 2 q = k := by
  have hq : 0 < q := lt_of_lt_of_le (by positivity) hl
  have h₁ := (Int.zpow_le_iff_le_log (R := ℚ) one_lt_two hq).mp (by exact_mod_cast hl)
  have h₂ := (Int.lt_zpow_iff_log_lt (R := ℚ) one_lt_two hq).mp (by exact_mod_cast hu)
  omega

namespace Binary64

-- Both parts of the fraction lie between a power of two and the next one. Comparing them without
-- these powers tells which one of two powers the fraction reaches.
theorem unitExponent_eq (hn : num ≠ 0) (hd : den ≠ 0) :
    unitExponent num den = max (Int.log 2 (num / den : ℚ) - 52) (-1074) := by
  have hd₀ : (0 : ℚ) < den := by positivity
  have hnl : ((2 : ℚ) ^ num.log2) ≤ num := by exact_mod_cast Nat.log2_self_le hn
  have hnu : (num : ℚ) < 2 ^ (num.log2 + 1) := by exact_mod_cast Nat.lt_log2_self (n := num)
  have hdl : ((2 : ℚ) ^ den.log2) ≤ den := by exact_mod_cast Nat.log2_self_le hd
  have hdu : (den : ℚ) < 2 ^ (den.log2 + 1) := by exact_mod_cast Nat.lt_log2_self (n := den)
  have hz (m n : Nat) : (2 : ℚ) ^ ((m : Int) - n) = 2 ^ m / 2 ^ n := by
    rw [zpow_sub₀ two_ne_zero, zpow_natCast, zpow_natCast]
  unfold unitExponent
  simp only [Nat.pow_eq]
  split
  case isTrue hlt =>
    have hlt : (num : ℚ) * 2 ^ den.log2 < den * 2 ^ num.log2 := by exact_mod_cast hlt
    have hl : Int.log 2 (num / den : ℚ) = (num.log2 : Int) - (den.log2 + 1 : Nat) := by
      apply log_eq_of_le_of_lt
      · rw [hz, div_le_div_iff₀ (by positivity) hd₀]
        nlinarith
      · have : (num.log2 : Int) - (den.log2 + 1 : Nat) + 1 = num.log2 - den.log2 := by omega
        rw [this, hz, div_lt_div_iff₀ hd₀ (by positivity)]
        linarith
    rw [hl]
    omega
  case isFalse hge =>
    have hge : (den : ℚ) * 2 ^ num.log2 ≤ num * 2 ^ den.log2 := by exact_mod_cast not_lt.mp hge
    have hl : Int.log 2 (num / den : ℚ) = (num.log2 : Int) - den.log2 := by
      apply log_eq_of_le_of_lt
      · rw [hz, div_le_div_iff₀ (by positivity) hd₀]
        linarith
      · have : (num.log2 : Int) - den.log2 + 1 = (num.log2 + 1 : Nat) - den.log2 := by omega
        rw [this, hz, div_lt_div_iff₀ hd₀ (by positivity)]
        nlinarith
    rw [hl]

theorem nearest_congr (hd : 0 < den) (hd' : 0 < den') (h : num * den' = num' * den) :
    nearest num den = nearest num' den' := by
  by_cases hn : num = 0
  case pos =>
    rw [hn, Nat.zero_mul] at h
    have hn' : num' = 0 := (Nat.mul_eq_zero.mp h.symm).resolve_right hd.ne'
    rw [hn, hn', nearest, nearest, if_pos rfl, if_pos rfl]
  case neg =>
    have hn' : num' ≠ 0 := by
      rintro rfl
      rw [Nat.zero_mul] at h
      exact (Nat.mul_ne_zero hn hd'.ne') h
    have hq : (num / den : ℚ) = num' / den' := by
      rw [div_eq_div_iff (by positivity) (by positivity)]
      exact_mod_cast h
    have hu : unitExponent num den = unitExponent num' den' := by
      rw [unitExponent_eq hn hd.ne', unitExponent_eq hn' hd'.ne', hq]
    simp only [nearest, hn, hn', if_false, hu, Nat.pow_eq]
    congr 2
    refine roundQuotient_congr (by positivity) (by positivity) ?_
    rw [Nat.mul_mul_mul_comm, h, Nat.mul_mul_mul_comm]

-- Below the least normal value the unit stays the same.
theorem unitExponent_eq_least (hn : num ≠ 0) (hd : den ≠ 0) (h : num * 2 ^ 1022 < den) :
    unitExponent num den = -1074 := by
  have hq : (num / den : ℚ) < ((2 : Nat) : ℚ) ^ (-1022 : Int) := by
    have h : (num : ℚ) * 2 ^ 1022 < den := by exact_mod_cast h
    rw [zpow_neg, Nat.cast_ofNat, div_lt_iff₀ (by positivity), inv_mul_eq_div,
      lt_div_iff₀ (by positivity)]
    exact_mod_cast h
  have hl := (Int.lt_zpow_iff_log_lt (R := ℚ) one_lt_two (by positivity)).mp hq
  rw [unitExponent_eq hn hd]
  omega

theorem nearest_eq_zero (h : 2 * (num * 2 ^ 1074) < den) : nearest num den = 0 := by
  by_cases hn : num = 0
  case pos => rw [hn, nearest, if_pos rfl]
  case neg =>
    have hlt : num * 2 ^ 1022 < den := by
      have hle : num * 2 ^ 1022 ≤ num * 2 ^ 1074 :=
        Nat.mul_le_mul_left num (pow_le_pow_right₀ one_le_two (by decide))
      have hge : num * 2 ^ 1074 ≤ 2 * (num * 2 ^ 1074) := Nat.le_mul_of_pos_left _ two_pos
      exact lt_of_le_of_lt (le_trans hle hge) h
    -- The power is not to be computed.
    obtain ⟨k, hk⟩ : ∃ k, k = 1074 := ⟨_, rfl⟩
    have hup : (-(-1074) : Int).toNat = k := hk.symm
    have hdown : (-1074 : Int).toNat = 0 := rfl
    rw [← hk] at h
    rw [nearest, if_neg hn, unitExponent_eq_least hn (Nat.ne_zero_of_lt h) hlt]
    simp only [Nat.pow_eq]
    rw [hup, hdown, Nat.pow_zero, Nat.mul_one, roundQuotient_eq_zero h]
    rfl

theorem nearest_eq_infinity (hd : 0 < den) (h : den * 2 ^ 1024 ≤ num) :
    nearest num den = infinity := by
  have hn : num ≠ 0 := (lt_of_lt_of_le (by positivity) h).ne'
  have hq : (0 : ℚ) < num / den := by positivity
  have hl : 1024 ≤ Int.log 2 (num / den : ℚ) := by
    have h : (den : ℚ) * 2 ^ 1024 ≤ num := by exact_mod_cast h
    refine (Int.zpow_le_iff_le_log (R := ℚ) one_lt_two hq).mp ?_
    rw [Nat.cast_ofNat, le_div_iff₀ (by positivity), mul_comm]
    exact_mod_cast h
  obtain ⟨n, hn'⟩ := Int.eq_ofNat_of_zero_le (by omega : 0 ≤ Int.log 2 (num / den : ℚ) - 52)
  have hu : unitExponent num den = n := by
    rw [unitExponent_eq hn hd.ne', hn']
    omega
  have hb : 2 ^ 52 ≤ roundQuotient (num * Nat.pow 2 (-(n : Int)).toNat)
      (den * Nat.pow 2 (n : Int).toNat) := by
    refine le_trans ?_ (div_le_roundQuotient ..)
    have hle := Int.zpow_log_le_self (R := ℚ) one_lt_two hq
    have hs : Int.log 2 (num / den : ℚ) = (n + 52 : Nat) := by omega
    rw [hs, zpow_natCast, le_div_iff₀ (by positivity)] at hle
    have hle : 2 ^ (n + 52) * den ≤ num := by exact_mod_cast hle
    rw [Nat.le_div_iff_mul_le (by simp [hd])]
    simpa [Nat.pow_add, Nat.mul_comm, Nat.mul_left_comm, Nat.mul_assoc] using hle
  rw [nearest, if_neg hn, hu]
  simp only [infinity]
  omega

-- A fraction that is a whole number of its units needs no rounding.
theorem nearest_units {s : Nat} {e : Int} (hs : s ≠ 0)
    (h : unitExponent (s * 2 ^ e.toNat) (2 ^ (-e).toNat) = e) :
    nearest (s * 2 ^ e.toNat) (2 ^ (-e).toNat) =
      min ((e + 1074).toNat * 0x10_0000_0000_0000 + s) infinity := by
  rw [nearest, if_neg (by positivity), h]
  simp only [Nat.pow_eq]
  rw [Nat.mul_assoc, Nat.mul_comm (2 ^ (-e).toNat), roundQuotient_mul_self _ (by positivity)]

-- The unit of a fraction that has 53 binary digits when it is counted in this unit.
theorem unitExponent_units {s : Nat} {e : Int} (hl : 2 ^ 52 ≤ s) (hu : s < 2 ^ 53)
    (he : -1074 ≤ e) : unitExponent (s * 2 ^ e.toNat) (2 ^ (-e).toNat) = e := by
  have hs : s ≠ 0 := by omega
  have hp : (2 : ℚ) ^ e.toNat / 2 ^ (-e).toNat = 2 ^ e := by
    rw [← zpow_natCast, ← zpow_natCast, ← zpow_sub₀ two_ne_zero]
    congr 1
    omega
  have hq : ((s * 2 ^ e.toNat : Nat) / (2 ^ (-e).toNat : Nat) : ℚ) = s * 2 ^ e := by
    rw [← hp]
    push_cast
    ring
  have hlog : Int.log 2 ((s * 2 ^ e.toNat : Nat) / (2 ^ (-e).toNat : Nat) : ℚ) = 52 + e := by
    rw [hq]
    apply log_eq_of_le_of_lt
    · rw [zpow_add₀ two_ne_zero]
      exact mul_le_mul_of_nonneg_right (by exact_mod_cast hl) (by positivity)
    · rw [add_right_comm, zpow_add₀ two_ne_zero]
      exact mul_lt_mul_of_pos_right (by exact_mod_cast hu) (by positivity)
  rw [unitExponent_eq (by positivity) (by positivity), hlog]
  omega

theorem nearest_value {bits : Nat} (h : bits < infinity) :
    nearest (numerator bits) (denominator bits) = bits := by
  simp only [infinity] at h
  by_cases h₀ : bits = 0
  case pos => rw [h₀]; rfl
  simp only [numerator, denominator, Nat.pow_eq]
  by_cases hlt : bits < 0x10_0000_0000_0000
  case pos =>
    have hs : significand bits = bits := if_pos hlt
    have he : exponent bits = -1074 := if_pos hlt
    have hd : 2 ^ (-(-1074) : Int).toNat = 2 ^ 52 * 2 ^ 1022 := by
      rw [← Nat.pow_add]
      congr 1
    have hu : unitExponent (bits * 2 ^ (-1074 : Int).toNat) (2 ^ (-(-1074) : Int).toNat) =
        -1074 := by
      refine unitExponent_eq_least (by positivity) (by positivity) ?_
      rw [hd]
      exact Nat.mul_lt_mul_of_pos_right (by simpa using hlt) (by positivity)
    rw [hs, he, nearest_units h₀ hu]
    simp only [infinity]
    omega
  case neg =>
    have hs : significand bits = 0x10_0000_0000_0000 + bits % 0x10_0000_0000_0000 := if_neg hlt
    have he : exponent bits = bits / 0x10_0000_0000_0000 - 1075 := if_neg hlt
    have hu := unitExponent_units (s := significand bits) (e := exponent bits)
      (by omega) (by omega) (by omega)
    rw [nearest_units (by omega) hu, hs, he]
    simp only [infinity]
    omega

end Binary64

end Reckoner
