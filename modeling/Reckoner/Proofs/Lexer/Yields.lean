import Reckoner.Proofs.Lexer.Items

/-!
Runs of the lexer without a fault. A name or a number ends where white space, a symbol or the end of
the text follows it, so runs over the parts of a text make up a run over the text.
-/

namespace Reckoner.Lexer

open Text

variable {lexer middle next : Lexer} {c : Char} {kind : Token.Kind} {rest blank : List Char}
variable {offset : Nat} {tokens more : List Token}

-- The lexer gives out the tokens on its way to the next lexer.
def Yields (lexer : Lexer) (tokens : List Token) (next : Lexer) : Prop :=
  lexer.items = tokens.map .ok ++ next.items

-- No token that ends before the rest of a text could go on into it.
def Delimits (rest : List Char) : Prop :=
  ∀ c ∈ rest.head?, isWhiteSpace c = true ∨ ∃ kind, symbolKind? c = some kind

theorem delimits_nil : Delimits [] := by
  simp [Delimits]

theorem delimits_symbol (h : symbolKind? c = some kind) : Delimits (c :: rest) := by
  simp [Delimits, h]

theorem Delimits.blank_append (hb : Blank blank) (hd : Delimits rest) :
    Delimits (blank ++ rest) := by
  cases blank
  case nil => exact hd
  case cons c blank =>
    intro c' hc
    cases hc
    exact .inl (hb c List.mem_cons_self)

theorem Delimits.not_head (h : Delimits rest) :
    ∀ c ∈ rest.head?, c.isDigit = false ∧ isAlphabetic c = false ∧ c ≠ '.' := by
  intro c hc
  cases h c hc
  case inl hw =>
    refine ⟨isDigit_eq_false_of_isWhiteSpace hw, isAlphabetic_eq_false_of_isWhiteSpace hw, ?_⟩
    intro he
    subst he
    exact absurd hw (by decide)
  case inr hs =>
    have ⟨kind, hs⟩ := hs
    refine ⟨(not_of_symbolKind? hs).1, (not_of_symbolKind? hs).2.1, ?_⟩
    intro he
    subst he
    cases hs

theorem takeWhile_append_of_head_false {p : Char → Bool} (text : List Char)
    (hr : ∀ c ∈ rest.head?, p c = false) :
    (text ++ rest).takeWhile p = text.takeWhile p ∧
      (text ++ rest).dropWhile p = text.dropWhile p ++ rest := by
  induction text
  case nil => cases rest <;> simp_all
  case cons c text hi => cases hp : p c <;> simp [hp, hi]

theorem takeWhile_append_of_head {p : Char → Bool} {text rest : List Char}
    (ht : ∀ c ∈ text, p c = true) (hr : ∀ c ∈ rest.head?, p c = false) :
    (text ++ rest).takeWhile p = text ∧ (text ++ rest).dropWhile p = rest := by
  have ⟨htake, hdrop⟩ := takeWhile_append_of_head_false text hr
  rw [htake, hdrop, List.takeWhile_eq_self_iff.mpr ht, List.dropWhile_eq_nil_iff.mpr ht]
  exact ⟨rfl, rfl⟩

-- The literals of numbers: digits, and digits around a point.
inductive Literal : List Char → Prop
  | whole {digits : List Char} :
    digits ≠ [] → (∀ c ∈ digits, c.isDigit = true) → Literal digits
  | decimal {digits places : List Char} :
    digits ≠ [] → (∀ c ∈ digits, c.isDigit = true) → places ≠ [] →
    (∀ c ∈ places, c.isDigit = true) → Literal (digits ++ '.' :: places)

theorem Literal.exists_cons {literal : List Char} (h : Literal literal) :
    ∃ c rest, literal = c :: rest ∧ c.isDigit = true := by
  cases h
  case whole hn hc =>
    have ⟨c, rest, hl⟩ := List.exists_cons_of_ne_nil hn
    exact ⟨c, rest, hl, hc c (by simp [hl])⟩
  case decimal digits places hn hc _ _ =>
    have ⟨c, rest, hl⟩ := List.exists_cons_of_ne_nil hn
    exact ⟨c, rest ++ '.' :: places, by simp [hl], hc c (by simp [hl])⟩

-- A number ends before anything but a digit and a point.
theorem number_literal {literal : List Char} (h : Literal literal)
    (hr : ∀ c ∈ rest.head?, c.isDigit = false ∧ c ≠ '.') :
    number (literal ++ rest) = (literal, rest) := by
  cases h
  case whole hn hc =>
    have ⟨ht, hr'⟩ := takeWhile_append_of_head hc fun c h => (hr c h).1
    unfold number
    rw [ht, hr']
    split
    case h_1 rest' => exact absurd rfl (hr '.' rfl).2
    case h_2 => rfl
  case decimal digits places _ hc _ hp =>
    have ⟨ht, hr⟩ := takeWhile_append_of_head hp fun c h => (hr c h).1
    have hdot : ∀ c ∈ ('.' :: (places ++ rest)).head?, c.isDigit = false := by simp
    have ⟨ht', hr'⟩ := takeWhile_append_of_head hc hdot
    rw [List.append_assoc, List.cons_append]
    unfold number
    rw [ht', hr']
    simp only [ht, hr]

theorem identifier_name {name : List Char} (h : ∀ c ∈ name, isAlphabetic c = true)
    (hr : ∀ c ∈ rest.head?, isAlphabetic c = false) :
    identifier (name ++ rest) = (name, rest) := by
  have ⟨ht, hr⟩ := takeWhile_append_of_head h hr
  rw [identifier, ht, hr]

namespace Yields

theorem trans (h₁ : lexer.Yields tokens middle) (h₂ : middle.Yields more next) :
    lexer.Yields (tokens ++ more) next := by
  simp only [Yields, List.map_append, List.append_assoc] at *
  rw [h₁, h₂]

theorem of_next? {token : Token} (h : lexer.next? = some (.ok token, next)) :
    lexer.Yields [token] next :=
  items_of_next?_eq_some h

theorem of_blank (h : Blank blank) :
    Yields ⟨blank ++ rest, offset, false⟩ [] ⟨rest, offset + byteSize blank, false⟩ :=
  items_blank h

theorem of_symbol (h : symbolKind? c = some kind) :
    Yields ⟨c :: rest, offset, false⟩ [⟨kind, String.ofList [c], offset⟩]
      ⟨rest, offset + byteSize [c], false⟩ :=
  of_next? (scan_symbol h)

theorem of_name_before {name : List Char} (hn : name ≠ [])
    (h : ∀ c ∈ name, isAlphabetic c = true) (hr : ∀ c ∈ rest.head?, isAlphabetic c = false) :
    Yields ⟨name ++ rest, offset, false⟩ [⟨.identifier, String.ofList name, offset⟩]
      ⟨rest, offset + byteSize name, false⟩ := by
  have hi := identifier_name h hr
  cases name
  case nil => contradiction
  case cons c name =>
    apply of_next?
    rw [List.cons_append] at hi ⊢
    have hs := @scan_alphabetic _ (name ++ rest) offset false (h c List.mem_cons_self)
    rwa [hi] at hs

theorem of_name {name : List Char} (hn : name ≠ []) (h : ∀ c ∈ name, isAlphabetic c = true)
    (hd : Delimits rest) :
    Yields ⟨name ++ rest, offset, false⟩ [⟨.identifier, String.ofList name, offset⟩]
      ⟨rest, offset + byteSize name, false⟩ :=
  of_name_before hn h fun c hc => (hd.not_head c hc).2.1

theorem of_literal_before {literal : List Char} {value : Float} (h : Literal literal)
    (hv : Numeral.read literal = .ok value)
    (hr : ∀ c ∈ rest.head?, c.isDigit = false ∧ c ≠ '.') :
    Yields ⟨literal ++ rest, offset, false⟩ [⟨.number value, String.ofList literal, offset⟩]
      ⟨rest, offset + byteSize literal, false⟩ := by
  have hi := number_literal h hr
  obtain ⟨c, literal, rfl, hc⟩ := h.exists_cons
  apply of_next?
  rw [List.cons_append] at hi ⊢
  have hs := @scan_digit _ (literal ++ rest) offset false hc
  rwa [hi, numberItem, hv] at hs

theorem of_literal {literal : List Char} {value : Float} (h : Literal literal)
    (hv : Numeral.read literal = .ok value) (hd : Delimits rest) :
    Yields ⟨literal ++ rest, offset, false⟩ [⟨.number value, String.ofList literal, offset⟩]
      ⟨rest, offset + byteSize literal, false⟩ :=
  of_literal_before h hv fun c hc => ⟨(hd.not_head c hc).1, (hd.not_head c hc).2.2⟩

end Yields

end Reckoner.Lexer
