import Reckoner.Number.Rounding

/-!
Decimals and the binary64 value nearest to them.
-/

namespace Reckoner

-- The non-negative decimal `coefficient * 10 ^ exponent`.
structure Decimal where
  coefficient : Nat
  exponent : Int
deriving DecidableEq, Repr

namespace Decimal

def numerator (d : Decimal) : Nat :=
  d.coefficient * Nat.pow 10 d.exponent.toNat

def denominator (d : Decimal) : Nat :=
  Nat.pow 10 (-d.exponent).toNat

-- Whether the exponent alone puts the decimal above every finite value.
def Overflows (d : Decimal) : Prop :=
  d.coefficient ≠ 0 ∧ 309 ≤ d.exponent

-- Whether the decimal is zero, or the exponent alone puts it below half of the least positive
-- value: a coefficient of `n` binary digits is below `2 ^ n`, and ten is above `2 ^ 3`.
def Vanishes (d : Decimal) : Prop :=
  d.coefficient = 0 ∨ d.coefficient.log2 + 1080 < 3 * (-d.exponent).toNat

instance (d : Decimal) : Decidable d.Overflows := by unfold Overflows; infer_instance
instance (d : Decimal) : Decidable d.Vanishes := by unfold Vanishes; infer_instance

-- The bits of the value nearest to the decimal. Exponents of any size are taken, so the power of
-- ten is only computed where it matters.
def bits (d : Decimal) : Nat :=
  if d.Overflows then Binary64.infinity
  else if d.Vanishes then 0
  else Binary64.nearest d.numerator d.denominator

def toFloat (d : Decimal) : Float :=
  Float.ofBits (UInt64.ofNat d.bits)

-- The same decimal with no zero at the end of its coefficient.
def stripped (d : Decimal) : Decimal :=
  if h : d.coefficient ≠ 0 ∧ d.coefficient % 10 = 0 then
    stripped ⟨d.coefficient / 10, d.exponent + 1⟩
  else d
termination_by d.coefficient
decreasing_by exact Nat.div_lt_self (Nat.pos_of_ne_zero h.1) (by decide)

end Decimal

end Reckoner
