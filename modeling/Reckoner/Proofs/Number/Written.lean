import Mathlib
import Reckoner.Proofs.Lexer.Numbers
import Reckoner.Proofs.Number.Bits
import Reckoner.Proofs.Number.Decimal
import Reckoner.Proofs.Number.Shape

/-!
Written numbers are read back. A decimal has the same value in each of its forms, so a magnitude
that is written in any layout is read as itself, and two of them are never written alike.
-/

namespace Reckoner

namespace Decimal

-- Zeros at the end of the coefficient.
theorem bits_shifts (c n : Nat) (e : Int) : bits ⟨c * 10 ^ n, e⟩ = bits ⟨c, e + n⟩ := by
  induction n generalizing e
  case zero => simp
  case succ n hi =>
    rw [pow_succ, ← Nat.mul_assoc, bits_shift, hi]
    congr 2
    push_cast
    ring

theorem toFloat_congr {d d' : Decimal} (h : d.bits = d'.bits) : d.toFloat = d'.toFloat := by
  rw [toFloat, toFloat, h]

end Decimal

namespace Numeral

open Layout
open Nat (ofDigitChars ofDigitChars_append ofDigitChars_toDigits)

theorem natural?_toDigits (n : Nat) : natural? (Nat.toDigits 10 n) = some n := by
  have ha : (Nat.toDigits 10 n).all Char.isDigit = true :=
    List.all_eq_true.mpr fun _ => isDigit_of_mem_toDigits
  rw [natural?, if_pos ⟨Nat.toDigits_ne_nil, ha⟩, Nat.ofDigitChars_toDigits (by decide) (by decide)]

theorem exponent?_integer (n : Int) : exponent? ('e' :: integer n) = some n := by
  have hn := natural?_toDigits n.natAbs
  unfold integer
  split
  case isTrue =>
    simp only [exponent?, true_or, if_true, hn, Option.bind_eq_bind, Option.bind_some,
      Option.pure_def, Option.map_some, Option.some.injEq]
    omega
  case isFalse =>
    have ⟨c, rest, hc⟩ := List.exists_cons_of_ne_nil (Nat.toDigits_ne_nil (b := 10) (n := n.natAbs))
    have hd : c.isDigit = true := isDigit_of_mem_toDigits (hc ▸ List.mem_cons_self)
    rw [hc] at hn ⊢
    simp only [exponent?, true_or, if_true]
    split
    case h_1 he =>
      cases he
      cases hd
    case h_2 he =>
      cases he
      cases hd
    case h_3 =>
      simp only [hn, Option.map_some, Option.some.injEq, Int.ofNat_eq_natCast]
      omega

theorem ofDigitChars_zeros (n k : Nat) :
    Nat.ofDigitChars 10 (List.replicate k '0') n = n * 10 ^ k := by
  induction k generalizing n
  case zero => simp
  case succ k hi =>
    rw [List.replicate_succ, Nat.ofDigitChars_cons, hi, Nat.sub_self, Nat.add_zero, pow_succ',
      Nat.mul_comm 10 n, Nat.mul_assoc]

-- A decimal is read as it stands in each form. Zeros behind its digits are worth the exponent.
theorem read_of_form {digits text : List Char} {e : Int} (h : Form digits e text)
    (hn : digits ≠ []) (hd : ∀ c ∈ digits, c.isDigit = true) :
    read text = .ok (Decimal.toFloat ⟨ofDigitChars 10 digits 0, e⟩) := by
  have hz (zeros : Nat) : ∀ c ∈ digits ++ List.replicate zeros '0', c.isDigit = true :=
    List.forall_mem_append.mpr ⟨hd, fun _ => isDigit_of_mem_zeros⟩
  cases h
  case below zeros he =>
    have hp : ∀ c ∈ List.replicate zeros '0' ++ digits, c.isDigit = true :=
      List.forall_mem_append.mpr ⟨fun _ => isDigit_of_mem_zeros, hd⟩
    have hr := @read_point (List.replicate 1 '0') _ (by simp) (by simp) hp
    rw [← List.append_assoc, List.replicate_append_replicate, ofDigitChars_append,
      ofDigitChars_zeros, Nat.zero_mul, List.length_append, List.length_replicate, ← he] at hr
    exact hr
  case whole zeros he =>
    rw [read_whole (by simp [hn]) (hz zeros), ofDigitChars_append, ofDigitChars_zeros]
    refine congrArg _ (Decimal.toFloat_congr ?_)
    rw [Decimal.bits_shifts, zero_add, he]
  case wholePoint zeros he =>
    have hr := @read_point _ (List.replicate 1 '0') (by simp [hn]) (hz zeros) (by simp)
    rw [ofDigitChars_append, ofDigitChars_append, ofDigitChars_zeros, ofDigitChars_zeros,
      Nat.mul_assoc, ← pow_add] at hr
    refine hr.trans (congrArg _ (Decimal.toFloat_congr ?_))
    rw [Decimal.bits_shifts, List.length_replicate]
    congr 2
    omega
  case point whole places hs hw he =>
    have ⟨hd, hp⟩ := List.forall_mem_append.mp (hs ▸ hd)
    rw [read_point hw hd hp, ← hs, ← he]
  case exponent first places tail hs ht =>
    have ⟨hd, hp⟩ := List.forall_mem_cons.mp (hs ▸ hd)
    have hf : fraction (tail ++ 'e' :: integer (places.length + e)) =
        (places, 'e' :: integer (places.length + e)) := by
      rw [ht]
      split
      case isTrue h =>
        rw [h]
        rfl
      case isFalse => exact fraction_point hp (by simp)
    have hhead : ∀ c ∈ (tail ++ 'e' :: integer (places.length + e)).head?, c.isDigit = false := by
      rw [ht]
      split <;> simp
    have hr := @read_of_digits [first] _ _ _ _ (by simp) (by simpa using hd) hhead hf
      (exponent?_integer _)
    rw [List.singleton_append, List.singleton_append, ← hs, add_sub_cancel_left] at hr
    exact hr

-- The digits that a decimal is written with.
theorem read_of_form_toDigits {d : Decimal} {text : List Char}
    (h : Form (Nat.toDigits 10 d.coefficient) d.exponent text) : read text = .ok d.toFloat := by
  rw [read_of_form h Nat.toDigits_ne_nil fun _ => isDigit_of_mem_toDigits,
    ofDigitChars_toDigits (by decide) (by decide)]

end Numeral

namespace Layout

variable {x y : Float}

theorem chars_inf (layout : Layout) : layout.chars Float.inf = ['i', 'n', 'f'] :=
  rfl

-- A finite magnitude is written as the decimal that stands for it.
theorem chars_of_finite (layout : Layout) (h : IsMagnitude x) (hi : x ≠ Float.inf) :
    layout.chars x =
      if layout.positional x then layout.withoutExponent (Binary64.shortest x.toBits.toNat)
      else withExponent (Binary64.shortest x.toBits.toNat) := by
  have hlt := h.toBits_lt_infinity hi
  have hm : x.toBits.toNat % 0x8000_0000_0000_0000 = x.toBits.toNat := Nat.mod_eq_of_lt h.2
  simp only [chars, magnitude, hm, hlt.not_gt, hlt.ne, h.2, h.ofBits_toBits, if_false, if_true]

theorem toFloat_shortest (h : IsMagnitude x) (hi : x ≠ Float.inf) :
    (Binary64.shortest x.toBits.toNat).toFloat = x := by
  rw [Decimal.toFloat, Binary64.bits_shortest (h.toBits_lt_infinity hi), h.ofBits_toBits]

-- Infinity is a word, and each other magnitude is a decimal of its value.
theorem chars_cases (layout : Layout) (h : IsMagnitude x) :
    x = Float.inf ∧ layout.chars x = ['i', 'n', 'f'] ∨
      ∃ d : Decimal, d.toFloat = x ∧
        Form (Nat.toDigits 10 d.coefficient) d.exponent (layout.chars x) := by
  by_cases hi : x = Float.inf
  case pos => exact .inl ⟨hi, hi ▸ layout.chars_inf⟩
  case neg =>
    refine .inr ⟨_, toFloat_shortest h hi, ?_⟩
    rw [layout.chars_of_finite h hi]
    split
    case isTrue => exact layout.form_withoutExponent _
    case isFalse => exact form_withExponent _

theorem read_chars (layout : Layout) (h : IsMagnitude x) :
    Numeral.read (layout.chars x) = .ok x := by
  rcases layout.chars_cases h with ⟨rfl, hc⟩ | ⟨d, rfl, hf⟩
  case inl =>
    rw [hc]
    rfl
  case inr => exact Numeral.read_of_form_toDigits hf

theorem isNumeric_chars (layout : Layout) (h : IsMagnitude x) (hi : x ≠ Float.inf) :
    IsNumeric (layout.chars x) := by
  have ⟨d, _, hf⟩ := (layout.chars_cases h).resolve_left fun he => hi he.1
  exact hf.isNumeric_toDigits

theorem chars_inj (layout : Layout) (hx : IsMagnitude x) (hy : IsMagnitude y) :
    layout.chars x = layout.chars y ↔ x = y := by
  constructor
  case mp =>
    intro h
    have hr := layout.read_chars hx
    rw [h, layout.read_chars hy] at hr
    exact (Except.ok.inj hr).symm
  case mpr => exact congrArg layout.chars

end Layout

end Reckoner
