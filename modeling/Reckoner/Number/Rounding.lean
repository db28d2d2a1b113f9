/-!
Rounding of exact quotients: to whole numbers, and to the numbers that binary64 represents.
A non-negative binary64 value is given by its bit pattern, a natural number. These patterns are
ordered as the values are.
-/

namespace Reckoner

-- The whole number nearest to `num / den`, the even one of two.
def roundQuotient (num den : Nat) : Nat :=
  let whole := num / den
  let rest := 2 * (num % den)
  if rest < den ∨ rest = den ∧ whole % 2 = 0 then whole else whole + 1

namespace Binary64

-- The bits of positive infinity. The significand fills the 52 low bits of a pattern, and the
-- exponent those above, of which `0x10_0000_0000_0000` is the lowest.
def infinity : Nat := 0x7FF0_0000_0000_0000

-- The exponent of the unit in the last place near `num / den`: the quotient has 53 binary digits
-- before the point when it is counted in this unit. No unit lies below `2 ^ -1074`.
def unitExponent (num den : Nat) : Int :=
  let e : Int := num.log2 - den.log2
  max (if num * Nat.pow 2 den.log2 < den * Nat.pow 2 num.log2 then e - 53 else e - 52) (-1074)

-- The bits of the value nearest to `num / den`, the one with the even significand of two. A
-- significand that is rounded up to `2 ^ 53` carries into the exponent field.
def nearest (num den : Nat) : Nat :=
  if num = 0 then 0 else
    let e := unitExponent num den
    let significand := roundQuotient (num * Nat.pow 2 (-e).toNat) (den * Nat.pow 2 e.toNat)
    min ((e + 1074).toNat * 0x10_0000_0000_0000 + significand) infinity

-- The significand of a finite value, which counts units in the last place.
def significand (bits : Nat) : Nat :=
  if bits < 0x10_0000_0000_0000 then bits
  else 0x10_0000_0000_0000 + bits % 0x10_0000_0000_0000

-- The exponent of the unit in the last place of a finite value.
def exponent (bits : Nat) : Int :=
  if bits < 0x10_0000_0000_0000 then -1074 else bits / 0x10_0000_0000_0000 - 1075

-- The value as a fraction: the part above the line.
def numerator (bits : Nat) : Nat :=
  significand bits * Nat.pow 2 (exponent bits).toNat

-- The value as a fraction: the part below the line.
def denominator (bits : Nat) : Nat :=
  Nat.pow 2 (-exponent bits).toNat

end Binary64

end Reckoner
