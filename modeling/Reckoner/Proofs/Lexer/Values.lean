import Mathlib
import Reckoner.Proofs.Agreement
import Reckoner.Proofs.Lexer.Numbers
import Reckoner.Proofs.Number.Bits
import Reckoner.Proofs.Number.Decimal

/-!
The values of the numbers in a text. Each number that the lexer cuts has a value, and this value is
a magnitude: no literal is negative and none is `NaN`, but one with too many digits is infinite.
The numbers of a tree are those of its text.
-/

namespace Reckoner

open Text

theorem Decimal.isMagnitude_toFloat (d : Decimal) : IsMagnitude d.toFloat :=
  .ofBits d.bits_le_infinity

theorem Text.IsNumber.isMagnitude {before piece after : List Char} {value : Float}
    (h : IsNumber before piece after) (hv : Numeral.read piece = .ok value) :
    IsMagnitude value := by
  have ⟨d, hd⟩ := h.exists_read
  rw [hd] at hv
  cases hv
  exact d.isMagnitude_toFloat

namespace Lexer

variable {text : String} {token : Token} {value : Float}

theorem value_of_mem_items (hm : .ok token ∈ (ofText text).items)
    (hk : token.kind = .number value) :
    Numeral.read token.literal.toList = .ok value ∧ IsMagnitude value := by
  have ⟨_, _, hf⟩ := fits_of_mem_items hm (by simp [hk])
  rw [hk] at hf
  exact ⟨hf.2, hf.1.isMagnitude hf.2⟩

-- A number with too many digits is infinite.
theorem items_of_overlong (hd : ∀ c ∈ text.toList, c.isDigit = true)
    (hl : 2 ^ 1024 ≤ Nat.ofDigitChars 10 text.toList 0) :
    (ofText text).items =
      [.ok ⟨.number Float.inf, text, 0⟩, .ok ⟨.eof, "", text.utf8ByteSize⟩] := by
  have hp : 0 < Nat.ofDigitChars 10 text.toList 0 := (pow_pos two_pos 1024).trans_le hl
  have hn : text.toList ≠ [] := by
    intro he
    rw [he] at hp
    cases hp
  have hb : Decimal.bits ⟨Nat.ofDigitChars 10 text.toList 0, 0⟩ = Binary64.infinity := by
    refine Decimal.bits_eq_infinity ?_
    simpa only [Decimal.denominator, Decimal.numerator, neg_zero, Int.toNat_zero, Nat.pow_eq,
      pow_zero, one_mul, mul_one] using hl
  have hr : Numeral.read text.toList = .ok Float.inf := by
    rw [Numeral.read_whole hn hd, Decimal.toFloat, hb]
    rfl
  have hy : Yields ⟨text.toList ++ [], 0, false⟩ _ _ := .of_literal (.whole hn hd) hr delimits_nil
  rw [List.append_nil] at hy
  rw [ofText, hy, items_end, Nat.zero_add, byteSize_toList, String.ofList_toList]
  rfl

end Lexer

-- The numbers of a tree, in the order in which they stand in its text.
def Tree.numbers : Tree → List Float
  | number value        => [value]
  | var _               => []
  | call _ argument     => argument.numbers
  | binary _ left right => left.numbers ++ right.numbers

def Token.Kind.value? : Kind → Option Float
  | number value => some value
  | _            => none

-- By induction on the phrase. Its numbers stand in the tree in the same order.
theorem Derives.numbers_eq {functions : Functions} {phrase : Phrase} {tokens : List Token}
    {tree : Tree} (h : Derives functions phrase tokens tree) :
    tree.numbers = tokens.filterMap (·.kind.value?) := by
  induction h
  case operand hi => exact hi
  case fold hk _ hl hr => simp [Tree.numbers, hl, hr, Token.Kind.value?, hk]
  case number hk => simp [Tree.numbers, Token.Kind.value?, hk]
  case var hk _ => simp [Tree.numbers, Token.Kind.value?, hk]
  case call hk _ ho _ hp hi => simp [Tree.numbers, hi, Token.Kind.value?, hk, ho, hp]
  case group ho _ hp hi => simp [hi, Token.Kind.value?, ho, hp]

theorem isMagnitude_of_build {functions : Functions} {source : Source} {tree : Tree}
    (h : (build functions source).result = .ok tree) :
    ∀ value ∈ tree.numbers, IsMagnitude value := by
  intro value hm
  have ⟨tokens, ht, hp⟩ := build_eq_ok_iff.mp h
  obtain ⟨before, eof, rest, rfl, _, hd⟩ := Parser.derives_of_parse hp
  rw [hd.numbers_eq] at hm
  have ⟨token, hb, hv⟩ := List.mem_filterMap.mp hm
  have hk : token.kind = .number value := by
    cases hk : token.kind <;> rw [hk] at hv <;> cases hv
    rfl
  have hi := mem_items_of_tokenize ht (List.mem_append_left _ hb)
  exact (Lexer.value_of_mem_items hi hk).2

theorem build_overlong {functions : Functions} {origin : Option String} {text : String}
    (hd : ∀ c ∈ text.toList, c.isDigit = true)
    (hl : 2 ^ 1024 ≤ Nat.ofDigitChars 10 text.toList 0) :
    (build functions ⟨origin, text⟩).result = .ok (.number Float.inf) := by
  have hf : Derives functions .factor [⟨.number Float.inf, text, 0⟩] (.number Float.inf) :=
    .number rfl
  refine build_eq_ok_iff.mpr ⟨[_, _], tokenize_eq_ok_iff.mpr (Lexer.items_of_overlong hd hl), ?_⟩
  exact Parser.parse_of_derives (hf.loosen (by decide)) rfl

-- Wherever the lexer cuts a number it can read it, so it never complains about one. The values of
-- the tokens, and with them the numbers of trees, are magnitudes. They can be infinite.
theorem numbers_of_text (text : String) :
    (∀ c rest, c.isDigit = true → ∃ value,
      Numeral.read (Lexer.number (c :: rest)).1 = .ok value ∧ IsMagnitude value) ∧
    (∀ place cause, .error (.invalidNumber place cause) ∉ (Lexer.ofText text).items) ∧
    (∀ token value, .ok token ∈ (Lexer.ofText text).items → token.kind = .number value →
      Numeral.read token.literal.toList = .ok value ∧ IsMagnitude value) ∧
    (∀ functions origin tree, (build functions ⟨origin, text⟩).result = .ok tree →
      ∀ value ∈ tree.numbers, IsMagnitude value) ∧
    ((∀ c ∈ text.toList, c.isDigit = true) → 2 ^ 1024 ≤ Nat.ofDigitChars 10 text.toList 0 →
      ∃ token, .ok token ∈ (Lexer.ofText text).items ∧ token.kind = .number Float.inf) := by
  refine ⟨?_, ?_, ?_, ?_, ?_⟩
  · intro c rest hc
    have hn : IsNumber [] (Lexer.number (c :: rest)).1 (Lexer.number (c :: rest)).2 :=
      Lexer.isNumber_number hc (Lexer.seam_nil _)
    have ⟨d, hd⟩ := hn.exists_read
    exact ⟨_, hd, d.isMagnitude_toFloat⟩
  · intro place cause hm
    cases Lexer.covers_of_mem_items hm
    case inl he => cases he
    case inr hc =>
      have ⟨_, _, _, hc⟩ := hc
      have hf : LexFault.Fits _ _ _ (.invalidNumber place cause) := hc.fits
      have ⟨_, he, _⟩ := hf.eq_strayCharacter
      cases he
  · exact fun token value hm hk => Lexer.value_of_mem_items hm hk
  · exact fun functions origin tree h => isMagnitude_of_build h
  · intro hd hl
    exact ⟨_, Lexer.items_of_overlong hd hl ▸ List.mem_cons_self, rfl⟩

end Reckoner
