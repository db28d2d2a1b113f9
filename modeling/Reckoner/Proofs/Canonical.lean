import Reckoner.Proofs.PrefixForm
import Reckoner.Proofs.Spacing

/-!
The canonical text of a number as a text of its own. Without an exponent it is one number again, and
of the same value. But the lexer knows no exponents: with one, the text is a shorter number, a name
and a whole number, and the text of infinity is only a name.
-/

namespace Reckoner

open Lexer (Literal Yields)

namespace Layout

theorem literal_withoutExponent (layout : Layout) (d : Decimal) :
    Literal (layout.withoutExponent d) := by
  have hn : Nat.toDigits 10 d.coefficient ≠ [] := Nat.toDigits_ne_nil
  have hd : ∀ c ∈ Nat.toDigits 10 d.coefficient, c.isDigit = true :=
    fun _ => isDigit_of_mem_toDigits
  have hz (zeros : Nat) : ∀ c ∈ List.replicate zeros '0', c.isDigit = true :=
    fun _ => isDigit_of_mem_zeros
  unfold withoutExponent
  generalize Nat.toDigits 10 d.coefficient = digits at *
  dsimp only
  split
  case isTrue =>
    rw [List.append_assoc]
    change Literal (['0'] ++ '.' :: (List.replicate _ '0' ++ digits))
    exact .decimal (by simp) (hz 1) (by simp [hn]) (List.forall_mem_append.mpr ⟨hz _, hd⟩)
  case isFalse =>
    split
    case isTrue =>
      have hw (zeros : Nat) := List.forall_mem_append.mpr ⟨hd, hz zeros⟩
      split
      case isTrue => exact .decimal (by simp [hn]) (hw _) (by simp) (hz 1)
      case isFalse =>
        rw [List.append_nil]
        exact .whole (by simp [hn]) (hw _)
    case isFalse hp hl =>
      rw [List.append_assoc, List.singleton_append]
      refine .decimal ?_ (fun c hc => hd c (List.mem_of_mem_take hc)) ?_
        fun c hc => hd c (List.mem_of_mem_drop hc)
      · simp [hn]
        omega
      · simp
        omega

theorem exists_literal_withExponent (d : Decimal) :
    ∃ literal n, Literal literal ∧ withExponent d = literal ++ 'e' :: integer n := by
  have hd : ∀ c ∈ Nat.toDigits 10 d.coefficient, c.isDigit = true :=
    fun _ => isDigit_of_mem_toDigits
  have ⟨first, places, he⟩ :=
    List.exists_cons_of_ne_nil (Nat.toDigits_ne_nil (b := 10) (n := d.coefficient))
  rw [he] at hd
  have ⟨hf, hp⟩ := List.forall_mem_cons.mp hd
  have hf : ∀ c ∈ [first], c.isDigit = true := List.forall_mem_singleton.mpr hf
  rw [withExponent, he]
  by_cases hn : places = []
  case pos => exact ⟨[first], _, .whole (by simp) hf, by simp [hn]; rfl⟩
  case neg => exact ⟨[first] ++ '.' :: places, _, .decimal (by simp) hf hn hp, by simp [hn]; rfl⟩

theorem isAlphabetic_head_integer (n : Int) :
    ∀ c ∈ (integer n).head?, Text.isAlphabetic c = false := by
  intro c hc
  unfold integer at hc
  split at hc
  case isTrue =>
    cases hc
    decide
  case isFalse =>
    have hd := isDigit_of_mem_toDigits (List.mem_of_mem_head? hc)
    exact Text.isAlphabetic_eq_false_of_isDigit hd

end Layout

namespace Lexer

variable {literal : List Char} {offset : Nat}

theorem Literal.exists_read (h : Literal literal) : ∃ value, Numeral.read literal = .ok value := by
  cases h
  case whole hn hd => exact ⟨_, Numeral.read_whole hn hd⟩
  case decimal hn hd _ hp => exact ⟨_, Numeral.read_point hn hd hp⟩

theorem literal_toDigits (n : Nat) : Literal (Nat.toDigits 10 n) :=
  .whole Nat.toDigits_ne_nil fun _ => Layout.isDigit_of_mem_toDigits

-- The sign of a whole number is an operator.
theorem exists_yields_integer (n : Int) (offset : Nat) :
    ∃ tokens value offset', Yields ⟨Layout.integer n, offset, false⟩ tokens ⟨[], offset', false⟩ ∧
      tokens.map Token.lexeme = (if n < 0 then [(.operator .minus, "-")] else []) ++
        [(.number value, String.ofList (Nat.toDigits 10 n.natAbs))] := by
  have ⟨value, hv⟩ := (literal_toDigits n.natAbs).exists_read
  have hy (offset : Nat) :=
    @Yields.of_literal [] offset _ _ (literal_toDigits n.natAbs) hv delimits_nil
  simp only [List.append_nil] at hy
  unfold Layout.integer
  split
  case isTrue => exact ⟨_, value, _, (Yields.of_symbol rfl).trans (hy _), rfl⟩
  case isFalse => exact ⟨_, value, _, hy _, rfl⟩

theorem Yields.tokenize_eq {text : List Char} {tokens : List Token} {offset : Nat}
    (h : Yields ⟨text, 0, false⟩ tokens ⟨[], offset, false⟩) :
    tokenize (String.ofList text) = .ok (tokens ++ [⟨.eof, "", offset⟩]) := by
  rw [tokenize_eq_ok_iff, ofText, String.toList_ofList, h, items_end, List.map_append]
  rfl

end Lexer

open Layout

-- The magnitudes whose canonical text has no exponent.
theorem positional_canonical_iff {value : Float} (h : IsMagnitude value) :
    canonical.positional value = true ↔ value = 0 ∨ 1e-4 ≤ value ∧ value < 1e16 := by
  have hz : IsMagnitude 0 := ⟨rfl, by decide⟩
  simp only [canonical, Bool.or_eq_true, Bool.and_eq_true, decide_eq_true_eq, h.beq_iff hz]

theorem tokenize_write_of_positional {value : Float} (h : IsMagnitude value)
    (hp : canonical.positional value = true) :
    ∃ tokens, tokenize (canonical.write value) = .ok tokens ∧
      tokens.map Token.kind = [.number value, .eof] := by
  have hi : value ≠ Float.inf := by
    rintro rfl
    cases hp
  have hl : Literal (canonical.chars value) := by
    rw [canonical.chars_of_finite h hi, if_pos hp]
    exact canonical.literal_withoutExponent _
  have hy := @Yields.of_literal [] 0 _ _ hl (canonical.read_chars h) Lexer.delimits_nil
  rw [List.append_nil] at hy
  exact ⟨_, hy.tokenize_eq, rfl⟩

theorem tokenize_write_inf :
    tokenize (canonical.write Float.inf) = .ok [⟨.identifier, "inf", 0⟩, ⟨.eof, "", 3⟩] := by
  have hy : Yields ⟨"inf".toList ++ [], 0, false⟩ _ _ :=
    .of_name (by decide) Tree.isName_inf.2 Lexer.delimits_nil
  exact hy.tokenize_eq

-- The exponent is the exponent of the text, digit by digit.
theorem tokenize_write_of_not_positional {value : Float} (h : IsMagnitude value)
    (hi : value ≠ Float.inf) (hp : canonical.positional value = false) :
    ∃ tokens literal n x y, tokenize (canonical.write value) = .ok tokens ∧
      canonical.write value = literal ++ "e" ++ String.ofList (integer n) ∧
      tokens.map Token.lexeme =
        [(.number x, literal), (.identifier, "e")] ++
        (if n < 0 then [(.operator .minus, "-")] else []) ++
        [(.number y, String.ofList (Nat.toDigits 10 n.natAbs)), (.eof, "")] := by
  have ⟨literal, n, hl, hw⟩ := exists_literal_withExponent (Binary64.shortest value.toBits.toNat)
  have hc : canonical.chars value = literal ++ (['e'] ++ integer n) := by
    rw [canonical.chars_of_finite h hi, hp, hw]
    rfl
  have ⟨x, hx⟩ := hl.exists_read
  have he : ∀ c ∈ ['e'], Text.isAlphabetic c = true := List.forall_mem_singleton.mpr (by decide)
  have hn : Yields ⟨literal ++ (['e'] ++ integer n), 0, false⟩ _ _ :=
    .of_literal_before hl hx (by simp)
  have hm : Yields ⟨['e'] ++ integer n, 0 + byteSize literal, false⟩ _ _ :=
    .of_name_before (by simp) he (isAlphabetic_head_integer n)
  have ⟨tokens, y, _, hy, ht⟩ :=
    Lexer.exists_yields_integer n (0 + byteSize literal + byteSize ['e'])
  have hts := (hn.trans (hm.trans hy)).tokenize_eq
  rw [← hc] at hts
  refine ⟨_, String.ofList literal, n, x, y, hts, ?_, ?_⟩
  · rw [Layout.write, hc, String.ofList_append, String.ofList_append, ← String.append_assoc]
  · simp [ht, Token.lexeme]

-- A number of a text in its canonical form: the form is cut into one number of the same value
-- exactly if it has no exponent. Otherwise it is cut without a fault too, but into other tokens.
theorem tokenize_canonical_text {text : String} {token : Token} {value : Float}
    (hm : .ok token ∈ (Lexer.ofText text).items) (hk : token.kind = .number value) :
    ∃ tokens, tokenize token.text = .ok tokens ∧
      (tokens.map Token.kind = [.number value, .eof] ↔
        value = 0 ∨ 1e-4 ≤ value ∧ value < 1e16) ∧
      (¬(value = 0 ∨ 1e-4 ≤ value ∧ value < 1e16) →
        value = Float.inf ∧ tokens.map Token.lexeme = [(.identifier, "inf"), (.eof, "")] ∨
        value ≠ Float.inf ∧ ∃ literal n x y,
          token.text = literal ++ "e" ++ String.ofList (integer n) ∧
          tokens.map Token.lexeme =
            [(.number x, literal), (.identifier, "e")] ++
            (if n < 0 then [(.operator .minus, "-")] else []) ++
            [(.number y, String.ofList (Nat.toDigits 10 n.natAbs)), (.eof, "")]) := by
  have h := (Lexer.value_of_mem_items hm hk).2
  have ht : token.text = canonical.write value := by rw [Token.text, hk]
  rw [ht, ← positional_canonical_iff h]
  cases hp : canonical.positional value
  case true =>
    obtain ⟨tokens, ht, hk⟩ := tokenize_write_of_positional h hp
    exact ⟨tokens, ht, iff_of_true hk rfl, fun hn => absurd rfl hn⟩
  case false =>
    by_cases hi : value = Float.inf
    case pos =>
      subst hi
      exact ⟨_, tokenize_write_inf, by simp, fun _ => .inl ⟨rfl, rfl⟩⟩
    case neg =>
      obtain ⟨tokens, literal, n, x, y, ht, hw, hl⟩ := tokenize_write_of_not_positional h hi hp
      refine ⟨tokens, ht, iff_of_false ?_ (by simp), fun _ => .inr ⟨hi, literal, n, x, y, hw, hl⟩⟩
      intro he
      have hl := congrArg List.length hl
      have he := congrArg List.length he
      simp at hl he
      omega

-- The least number without an exponent, and half of it.
theorem canonical_text_of_small_numbers :
    let text := "0.00010+0.00005"
    let least : Token := ⟨.number 1e-4, "0.00010", 0⟩
    let half : Token := ⟨.number 5e-5, "0.00005", 8⟩
    .ok least ∈ (Lexer.ofText text).items ∧ .ok half ∈ (Lexer.ofText text).items ∧
    (∃ tokens, tokenize least.text = .ok tokens ∧
      tokens.map Token.kind = [.number 1e-4, .eof]) ∧
    ∃ tokens, tokenize half.text = .ok tokens ∧ tokens.map Token.kind ≠ [.number 5e-5, .eof] := by
  intro text least half
  have hi : (Lexer.ofText text).items =
      [.ok least, .ok ⟨.operator .plus, "+", 7⟩, .ok half, .ok ⟨.eof, "", 15⟩] := by
    decide +kernel
  have hl : .ok least ∈ (Lexer.ofText text).items := by simp [hi]
  have hh : .ok half ∈ (Lexer.ofText text).items := by simp [hi]
  have ⟨tokens, ht, hk, _⟩ := tokenize_canonical_text hl rfl
  have ⟨tokens', ht', hk', _⟩ := tokenize_canonical_text hh rfl
  refine ⟨hl, hh, ⟨tokens, ht, hk.mpr ?_⟩, tokens', ht', mt hk'.mp ?_⟩
  · decide +kernel
  · decide +kernel

end Reckoner
