import Reckoner.Number.Decimal

/-!
Numerals: the texts that are read as numbers.

A numeral is an optional sign before `inf`, `infinity` or `nan` in letters of any case, or before
decimal digits with at most one point among or around them and an optional exponent.
-/

namespace Reckoner

namespace Numeral

-- Why a text is no numeral.
inductive Fault
  | empty
  | malformed
deriving DecidableEq, Repr

def Fault.message : Fault → String
  | empty     => "cannot parse float from empty string"
  | malformed => "invalid float literal"

-- The number that a non-empty run of digits writes.
def natural? (text : List Char) : Option Nat :=
  if text ≠ [] ∧ text.all Char.isDigit then some (Nat.ofDigitChars 10 text 0) else none

-- The exponent at the end of a numeral.
def exponent? : List Char → Option Int
  | [] => some 0
  | mark :: rest =>
    if mark = 'e' ∨ mark = 'E' then
      match rest with
      | '-' :: digits => (natural? digits).map fun n => -(n : Int)
      | '+' :: digits => (natural? digits).map Int.ofNat
      | digits        => (natural? digits).map Int.ofNat
    else none

-- The digits after a point at the head of the text, and what follows them.
def fraction : List Char → List Char × List Char
  | '.' :: rest => (rest.takeWhile Char.isDigit, rest.dropWhile Char.isDigit)
  | rest        => ([], rest)

-- Digits with an optional point and exponent. A point needs a digit on one of its sides.
def decimal? (text : List Char) : Option Decimal :=
  let whole := text.takeWhile Char.isDigit
  let (places, rest) := fraction (text.dropWhile Char.isDigit)
  if whole = [] ∧ places = [] then none
  else (exponent? rest).map fun e =>
    ⟨Nat.ofDigitChars 10 (whole ++ places) 0, e - places.length⟩

-- A numeral without its sign.
def magnitude (text : List Char) : Except Fault Float :=
  let word := text.map Char.toLower
  if word = ['i', 'n', 'f'] ∨ word = ['i', 'n', 'f', 'i', 'n', 'i', 't', 'y'] then
    .ok (Float.ofBits (UInt64.ofNat Binary64.infinity))
  else if word = ['n', 'a', 'n'] then
    .ok (Float.ofBits (UInt64.ofNat (Binary64.infinity + 0x8_0000_0000_0000)))
  else
    match decimal? text with
    | some d => .ok d.toFloat
    | none   => .error .malformed

-- The value of a numeral, or why the text is none.
def read : List Char → Except Fault Float
  | []          => .error .empty
  | '-' :: rest => (magnitude rest).map (- ·)
  | '+' :: rest => magnitude rest
  | text        => magnitude text

end Numeral

end Reckoner
