import Reckoner.Number.Shortest

/-!
How numbers are written: the decimal that stands for the number, laid out with or without an
exponent.
-/

namespace Reckoner

-- The decisions of a written form.
structure Layout where
  -- The magnitudes that are written without an exponent.
  positional : Float → Bool
  -- Whether a whole number without an exponent ends in `.0`.
  pointZero : Bool

namespace Layout

-- The form of numbers in tokens, trees and results: without an exponent from `1e-4` up to but not
-- including `1e16`, and with a point in every such number.
def canonical : Layout where
  positional x := x == 0 || (decide (1e-4 ≤ x) && decide (x < 1e16))
  pointZero := true

-- The form of numbers in the record of function calls: never an exponent.
def plain : Layout where
  positional _ := true
  pointZero := false

-- A decimal without an exponent.
def withoutExponent (layout : Layout) (d : Decimal) : List Char :=
  let digits := Nat.toDigits 10 d.coefficient
  let point := digits.length + d.exponent
  if point ≤ 0 then
    ['0', '.'] ++ List.replicate (-point).toNat '0' ++ digits
  else if digits.length ≤ point then
    digits ++ List.replicate (point - digits.length).toNat '0' ++
      (if layout.pointZero then ['.', '0'] else [])
  else
    digits.take point.toNat ++ ['.'] ++ digits.drop point.toNat

-- A whole number with a sign if it is negative.
def integer (n : Int) : List Char :=
  if n < 0 then '-' :: Nat.toDigits 10 n.natAbs else Nat.toDigits 10 n.natAbs

-- A decimal with one digit before the point, which is left out if no digit follows it.
def withExponent (d : Decimal) : List Char :=
  let digits := Nat.toDigits 10 d.coefficient
  let places := digits.drop 1
  digits.take 1 ++ (if places = [] then [] else '.' :: places) ++
    ['e'] ++ integer (digits.length - 1 + d.exponent)

-- The magnitude of a number that is not `NaN`, given by its bits.
def magnitude (layout : Layout) (bits : Nat) : List Char :=
  if bits = Binary64.infinity then ['i', 'n', 'f']
  else if layout.positional (Float.ofBits (UInt64.ofNat bits)) then
    layout.withoutExponent (Binary64.shortest bits)
  else withExponent (Binary64.shortest bits)

-- A number as it is written, behind a sign if its sign bit is set.
def chars (layout : Layout) (x : Float) : List Char :=
  let bits := x.toBits.toNat
  if Binary64.infinity < bits % 0x8000_0000_0000_0000 then ['N', 'a', 'N']
  else if bits < 0x8000_0000_0000_0000 then layout.magnitude bits
  else '-' :: layout.magnitude (bits % 0x8000_0000_0000_0000)

def write (layout : Layout) (x : Float) : String :=
  String.ofList (layout.chars x)

end Layout

end Reckoner
