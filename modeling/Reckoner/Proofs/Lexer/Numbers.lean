import Reckoner.Proofs.Lexer.Tiling
import Reckoner.Proofs.Lexer.Yields

/-!
The numbers of a text are numerals: whatever digits the lexer cuts, with or without a point among
them, can be read as a number. So a text has no faults but its stray characters.
-/

namespace Reckoner

namespace Numeral

theorem toLower_of_isDigit {c : Char} (h : c.isDigit = true) : c.toLower = c := by
  have ⟨_, h⟩ := Text.isDigit_iff.mp h
  refine dif_neg fun hu => ?_
  have hu : 65 ≤ c.toNat := hu.1
  omega

-- A text that begins with a digit has no sign and is no word.
theorem read_of_decimal? {c : Char} {rest : List Char} {d : Decimal} (hc : c.isDigit = true)
    (h : decimal? (c :: rest) = some d) : read (c :: rest) = .ok d.toFloat := by
  have hw (w : Char) (word : List Char) (hw : w.isDigit = false) :
      (c :: rest).map Char.toLower ≠ w :: word := by
    rw [List.map_cons, toLower_of_isDigit hc]
    rintro ⟨⟩
    exact absurd hc (by simp [hw])
  have hm : magnitude (c :: rest) = .ok d.toFloat := by
    unfold magnitude
    simp only [h, hw 'i' _ rfl, hw 'n' _ rfl, or_self, if_false]
  unfold read
  split
  case h_1 he => cases he
  case h_2 he =>
    cases he
    cases hc
  case h_3 he =>
    cases he
    cases hc
  case h_4 => exact hm

-- A run of digits is the whole part of a numeral, whatever places and exponent stand behind it.
theorem read_of_digits {digits rest places tail : List Char} {e : Int} (hn : digits ≠ [])
    (hd : ∀ c ∈ digits, c.isDigit = true) (hr : ∀ c ∈ rest.head?, c.isDigit = false)
    (hf : fraction rest = (places, tail)) (he : exponent? tail = some e) :
    read (digits ++ rest) =
      .ok (Decimal.toFloat ⟨Nat.ofDigitChars 10 (digits ++ places) 0, e - places.length⟩) := by
  have ⟨ht, hs⟩ := Lexer.takeWhile_append_of_head hd hr
  have hv : decimal? (digits ++ rest) =
      some ⟨Nat.ofDigitChars 10 (digits ++ places) 0, e - places.length⟩ := by
    simp [decimal?, ht, hs, hf, hn, he]
  obtain ⟨c, digits, rfl⟩ := List.exists_cons_of_ne_nil hn
  exact read_of_decimal? (hd c List.mem_cons_self) hv

theorem read_whole {digits : List Char} (hn : digits ≠ []) (hd : ∀ c ∈ digits, c.isDigit = true) :
    read digits = .ok (Decimal.toFloat ⟨Nat.ofDigitChars 10 digits 0, 0⟩) := by
  have hr := @read_of_digits digits [] [] [] 0 hn hd (by simp) rfl rfl
  rwa [List.append_nil] at hr

theorem fraction_point {places tail : List Char} (hp : ∀ c ∈ places, c.isDigit = true)
    (ht : ∀ c ∈ tail.head?, c.isDigit = false) :
    fraction ('.' :: places ++ tail) = (places, tail) := by
  have ⟨hp, ht⟩ := Lexer.takeWhile_append_of_head hp ht
  simp only [List.cons_append, fraction, hp, ht]

theorem read_point {digits places : List Char} (hn : digits ≠ [])
    (hd : ∀ c ∈ digits, c.isDigit = true) (hp : ∀ c ∈ places, c.isDigit = true) :
    read (digits ++ '.' :: places) =
      .ok (Decimal.toFloat ⟨Nat.ofDigitChars 10 (digits ++ places) 0, -places.length⟩) := by
  have hf := @fraction_point places [] hp (by simp)
  rw [List.append_nil] at hf
  have hr := read_of_digits hn hd (by simp) hf rfl
  rwa [zero_sub] at hr

end Numeral

namespace Text

variable {before piece after : List Char}

theorem IsFraction.fraction_eq {fraction : List Char} (h : IsFraction fraction after) :
    ∃ places, Numeral.fraction fraction = (places, []) := by
  cases h
  case none => exact ⟨[], rfl⟩
  case point places hp _ =>
    have hf := @Numeral.fraction_point places [] hp (by simp)
    rw [List.append_nil] at hf
    exact ⟨places, hf⟩

theorem IsFraction.not_head {fraction : List Char} (h : IsFraction fraction after) :
    ∀ c ∈ fraction.head?, c.isDigit = false := by
  cases h <;> simp

-- Every number of a text can be read, and as the value of a decimal.
theorem IsNumber.exists_read (h : IsNumber before piece after) :
    ∃ d : Decimal, Numeral.read piece = .ok d.toFloat := by
  obtain ⟨digits, fraction, rfl, hr, hf⟩ := h
  have ⟨places, hp⟩ := hf.fraction_eq
  exact ⟨_, Numeral.read_of_digits hr.ne_nil hr.all hf.not_head hp rfl⟩

end Text

-- No fault is about a number.
theorem LexFault.Fits.eq_strayCharacter {before piece after : List Char} {fault : LexFault}
    (h : fault.Fits before piece after) :
    ∃ c, fault = .strayCharacter fault.place c ∧ piece = [c] ∧ IsStray c := by
  cases fault
  case strayCharacter place c => exact ⟨c, rfl, h⟩
  case invalidNumber =>
    have ⟨hn, he⟩ := h
    have ⟨value, hv⟩ := hn.exists_read
    rw [hv] at he
    cases he

end Reckoner
