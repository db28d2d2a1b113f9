import Reckoner.Number.Decimal

/-!
The decimal that stands for a binary64 value in writing: of the decimals that are read back as this
value, one with the fewest digits, and of these the nearest to the value.

The decimals with `n` digits near a value form a grid. Only the two neighbours of the value on the
grid are tried: if any point of the grid is read back as the value, one of these two is.
-/

namespace Reckoner

namespace Binary64

-- The number of decimal digits of the value before the point, and for values below one the negated
-- number of zeros that follow the point.
def magnitude (bits : Nat) : Int :=
  let num := numerator bits
  let den := denominator bits
  if den ≤ num then (Nat.toDigits 10 (num / den)).length
  else 1 - (Nat.toDigits 10 ((den - 1) / num)).length

-- The neighbour with `n` digits that is read back as the value, if there is one. Of two the nearer
-- one is taken, and the upper one when both are equally near.
def neighbour? (bits n : Nat) : Option Decimal :=
  let grid := magnitude bits - n
  let num := numerator bits * Nat.pow 10 (-grid).toNat
  let den := denominator bits * Nat.pow 10 grid.toNat
  let below : Decimal := ⟨num / den, grid⟩
  let above : Decimal := ⟨num / den + 1, grid⟩
  if below.bits = bits then
    if above.bits = bits ∧ den ≤ 2 * (num % den) then some above else some below
  else if above.bits = bits then some above
  else none

-- The value itself, digit by digit: `m / 2 ^ k` is `m * 5 ^ k / 10 ^ k`.
def exact (bits : Nat) : Decimal :=
  let e := exponent bits
  ⟨significand bits * Nat.pow 2 e.toNat * Nat.pow 5 (-e).toNat, min e 0⟩

-- The decimal that stands for a finite value. Seventeen digits always identify a value.
def shortest (bits : Nat) : Decimal :=
  if bits = 0 then ⟨0, 0⟩
  else ((List.range 17).findSome? fun n => neighbour? bits (n + 1)).getD (exact bits) |>.stripped

end Binary64

end Reckoner
