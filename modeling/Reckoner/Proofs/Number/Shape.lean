import Mathlib
import Reckoner.Number.Layout

/-!
The forms of written decimals. Each of them begins with a digit, and nothing but points, exponents
and their signs stands among its digits.
-/

namespace Reckoner.Layout

variable {c : Char} {digits text rest : List Char} {e : Int}

-- The texts of a decimal with the given digits and exponent: with zeros between the point and the
-- digits, with zeros behind the digits, with the point among the digits, or with an exponent.
inductive Form (digits : List Char) (e : Int) : List Char → Prop
  | below {zeros : Nat} :
    e = -((zeros + digits.length : Nat) : Int) →
    Form digits e ('0' :: '.' :: (List.replicate zeros '0' ++ digits))
  | whole {zeros : Nat} : e = zeros → Form digits e (digits ++ List.replicate zeros '0')
  | wholePoint {zeros : Nat} :
    e = zeros → Form digits e (digits ++ List.replicate zeros '0' ++ ['.', '0'])
  | point {whole places : List Char} :
    digits = whole ++ places → whole ≠ [] → e = -(places.length : Int) →
    Form digits e (whole ++ '.' :: places)
  | exponent {first : Char} {places tail : List Char} :
    digits = first :: places → tail = (if places = [] then [] else '.' :: places) →
    Form digits e (first :: (tail ++ 'e' :: integer (places.length + e)))

theorem form_withoutExponent (layout : Layout) (d : Decimal) :
    Form (Nat.toDigits 10 d.coefficient) d.exponent (layout.withoutExponent d) := by
  have hn : Nat.toDigits 10 d.coefficient ≠ [] := Nat.toDigits_ne_nil
  unfold withoutExponent
  generalize Nat.toDigits 10 d.coefficient = digits at *
  dsimp only
  split
  case isTrue => exact .below (by omega)
  case isFalse =>
    split
    case isTrue =>
      split
      case isTrue => exact .wholePoint (by omega)
      case isFalse =>
        rw [List.append_nil]
        exact .whole (by omega)
    case isFalse =>
      rw [List.append_assoc, List.singleton_append]
      refine .point (List.take_append_drop ..).symm (by simp [hn]; omega) ?_
      rw [List.length_drop]
      omega

theorem form_withExponent (d : Decimal) :
    Form (Nat.toDigits 10 d.coefficient) d.exponent (withExponent d) := by
  have hn : Nat.toDigits 10 d.coefficient ≠ [] := Nat.toDigits_ne_nil
  have ⟨first, places, hd⟩ := List.exists_cons_of_ne_nil hn
  rw [withExponent, hd]
  have he : ((first :: places).length : Int) - 1 + d.exponent = places.length + d.exponent := by
    simp
  rw [he, List.append_assoc]
  exact .exponent rfl rfl

-- The characters of finite numbers: digits, points, exponents and their signs.
def IsNumeral (c : Char) : Prop :=
  c.isDigit = true ∨ c = '.' ∨ c = 'e' ∨ c = '-'

instance (c : Char) : Decidable (IsNumeral c) := by unfold IsNumeral; infer_instance

-- A text that begins with a digit and goes on with characters of numbers.
structure IsNumeric (text : List Char) : Prop where
  head : ∃ c rest, text = c :: rest ∧ c.isDigit = true
  all : ∀ c ∈ text, IsNumeral c

theorem IsNumeric.of_digits (hn : digits ≠ []) (hd : ∀ c ∈ digits, c.isDigit = true)
    (hr : ∀ c ∈ rest, IsNumeral c) : IsNumeric (digits ++ rest) where
  head := by
    have ⟨c, tail, hc⟩ := List.exists_cons_of_ne_nil hn
    exact ⟨c, tail ++ rest, by rw [hc]; rfl, hd c (hc ▸ List.mem_cons_self)⟩
  all := List.forall_mem_append.mpr ⟨fun c hc => .inl (hd c hc), hr⟩

theorem isDigit_of_mem_toDigits {n : Nat} (h : c ∈ Nat.toDigits 10 n) : c.isDigit = true :=
  Nat.isDigit_of_mem_toDigits (by decide) (by decide) h

theorem isDigit_of_mem_zeros {n : Nat} (h : c ∈ List.replicate n '0') : c.isDigit = true := by
  rw [List.eq_of_mem_replicate h]
  rfl

theorem isNumeral_of_mem_integer {n : Int} (h : c ∈ integer n) : IsNumeral c := by
  unfold integer at h
  split at h
  case isTrue =>
    rcases List.mem_cons.mp h with hc | hc
    · exact .inr (.inr (.inr hc))
    · exact .inl (isDigit_of_mem_toDigits hc)
  case isFalse => exact .inl (isDigit_of_mem_toDigits h)

theorem Form.isNumeric (h : Form digits e text) (hn : digits ≠ [])
    (hd : ∀ c ∈ digits, c.isDigit = true) : IsNumeric text := by
  have hz (zeros : Nat) : ∀ c ∈ List.replicate zeros '0', IsNumeral c :=
    fun _ hc => .inl (isDigit_of_mem_zeros hc)
  have hdot {places : List Char} (hp : ∀ c ∈ places, c.isDigit = true) :
      ∀ c ∈ '.' :: places, IsNumeral c :=
    List.forall_mem_cons.mpr ⟨by decide, fun c hc => .inl (hp c hc)⟩
  cases h
  case below zeros _ =>
    exact @IsNumeric.of_digits ['0'] _ (by simp) (by simp) (hdot
      (List.forall_mem_append.mpr ⟨fun _ => isDigit_of_mem_zeros, hd⟩))
  case whole zeros _ => exact .of_digits hn hd (hz zeros)
  case wholePoint zeros _ =>
    rw [List.append_assoc]
    exact .of_digits hn hd (List.forall_mem_append.mpr ⟨hz zeros, by simp [IsNumeral]⟩)
  case point whole places hs hw _ =>
    have ⟨hd, hp⟩ := List.forall_mem_append.mp (hs ▸ hd)
    exact .of_digits hw hd (hdot hp)
  case exponent first places tail hs ht =>
    have ⟨hf, hp⟩ := List.forall_mem_cons.mp (hs ▸ hd)
    have htail : ∀ c ∈ tail, IsNumeral c := by
      rw [ht]
      split
      case isTrue => exact List.forall_mem_nil _
      case isFalse => exact hdot hp
    have he : ∀ c ∈ 'e' :: integer (places.length + e), IsNumeral c :=
      List.forall_mem_cons.mpr ⟨by decide, fun _ => isNumeral_of_mem_integer⟩
    exact @IsNumeric.of_digits [first] _ (by simp) (by simpa using hf)
      (List.forall_mem_append.mpr ⟨htail, he⟩)

-- A written decimal without its digits.
theorem Form.isNumeric_toDigits {n : Nat} (h : Form (Nat.toDigits 10 n) e text) : IsNumeric text :=
  h.isNumeric Nat.toDigits_ne_nil fun _ => isDigit_of_mem_toDigits

end Reckoner.Layout
