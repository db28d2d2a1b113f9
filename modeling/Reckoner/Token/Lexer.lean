import Reckoner.Text.Alphabetic
import Reckoner.Text.WhiteSpace
import Reckoner.Token
import Reckoner.Token.Fault

/-!
The lexer cuts a text into tokens, from left to right, each one as long as it can be. White space
separates tokens and is left out. A character that no token starts with is a fault, after which
the lexer goes on with the next character. At the end of the text there is one token more.
-/

namespace Reckoner

open Text

-- A lexer on its way through a text: what is left of the text, the offset of that rest, and whether
-- the token at the end of the text was given out.
structure Lexer where
  rest : List Char
  offset : Nat
  finished : Bool
deriving DecidableEq, Repr

namespace Lexer

-- What the lexer gives out.
abbrev Item := Except LexFault Token

def ofText (text : String) : Lexer :=
  ⟨text.toList, 0, false⟩

-- The kinds of token that are written with one fixed character.
def symbolKind? : Char → Option Token.Kind
  | '(' => some .leftParen
  | ')' => some .rightParen
  | ',' => some .comma
  | c   => (Operator.ofSymbol? c).map .operator

-- The number at the head of a text and what follows it: digits and, if a point directly follows
-- them, the point and all digits directly after it.
def number (text : List Char) : List Char × List Char :=
  let whole := text.takeWhile Char.isDigit
  match text.dropWhile Char.isDigit with
  | '.' :: rest => (whole ++ '.' :: rest.takeWhile Char.isDigit, rest.dropWhile Char.isDigit)
  | rest => (whole, rest)

-- The name at the head of a text and what follows it.
def identifier (text : List Char) : List Char × List Char :=
  (text.takeWhile isAlphabetic, text.dropWhile isAlphabetic)

-- The item of a number that was cut from the text.
def numberItem (lexeme : List Char) (offset : Nat) : Item :=
  match Numeral.read lexeme with
  | .ok value    => .ok ⟨.number value, String.ofList lexeme, offset⟩
  | .error cause => .error (.invalidNumber ⟨offset, byteSize lexeme⟩ cause)

-- The next item of a text at an offset, and the lexer behind it. At the end of the text there is
-- only the token of the end, which is given out once.
def scan (finished : Bool) : List Char → Nat → Option (Item × Lexer)
  | [], offset =>
    if finished then none else some (.ok ⟨.eof, "", offset⟩, ⟨[], offset, true⟩)
  | c :: rest, offset =>
    let after (lexeme rest : List Char) : Lexer := ⟨rest, offset + byteSize lexeme, finished⟩
    match symbolKind? c with
    | some kind => some (.ok ⟨kind, String.ofList [c], offset⟩, after [c] rest)
    | none =>
      if c.isDigit then
        let (lexeme, rest) := number (c :: rest)
        some (numberItem lexeme offset, after lexeme rest)
      else if isAlphabetic c then
        let (lexeme, rest) := identifier (c :: rest)
        some (.ok ⟨.identifier, String.ofList lexeme, offset⟩, after lexeme rest)
      else if isWhiteSpace c then scan finished rest (offset + c.utf8Size)
      else some (.error (.strayCharacter ⟨offset, c.utf8Size⟩ c), after [c] rest)

-- The next item, and the lexer behind it.
def next? (lexer : Lexer) : Option (Item × Lexer) :=
  scan lexer.finished lexer.rest lexer.offset

-- The number of items that can still come is at most this.
def remaining (lexer : Lexer) : Nat :=
  lexer.rest.length + if lexer.finished then 0 else 1

theorem length_dropWhile_le (p : Char → Bool) (text : List Char) :
    (text.dropWhile p).length ≤ text.length :=
  (List.dropWhile_sublist p).length_le

theorem length_number_lt {c : Char} (h : c.isDigit) (rest : List Char) :
    (number (c :: rest)).2.length < (c :: rest).length := by
  have h₁ := length_dropWhile_le Char.isDigit rest
  have h₂ : (c :: rest).dropWhile Char.isDigit = rest.dropWhile Char.isDigit := by simp [h]
  unfold number
  rw [h₂]
  split
  · next heq =>
    have h₃ := length_dropWhile_le Char.isDigit (rest.dropWhile Char.isDigit).tail
    simp_all
    omega
  · simp
    omega

theorem length_identifier_lt {c : Char} (h : isAlphabetic c) (rest : List Char) :
    (identifier (c :: rest)).2.length < (c :: rest).length := by
  have h₁ := length_dropWhile_le isAlphabetic rest
  simp [identifier, h]
  omega

theorem remaining_scan {text : List Char} {offset : Nat} {finished : Bool} {item : Item}
    {lexer : Lexer} (h : scan finished text offset = some (item, lexer)) :
    lexer.remaining < text.length + if finished then 0 else 1 := by
  induction text generalizing offset with
  | nil =>
    cases finished <;> simp [scan] at h
    simp [← h.2, remaining]
  | cons c rest hi =>
    simp only [scan] at h
    split at h
    · simp only [Option.some.injEq, Prod.mk.injEq] at h
      simp [← h.2, remaining]
    split at h
    · next hd =>
      have := length_number_lt hd rest
      simp only [Option.some.injEq, Prod.mk.injEq] at h
      simpa [← h.2, remaining] using this
    split at h
    · next ha =>
      have := length_identifier_lt ha rest
      simp only [Option.some.injEq, Prod.mk.injEq] at h
      simpa [← h.2, remaining] using this
    split at h
    · exact Nat.lt_of_lt_of_le (hi h) (by simp)
    · simp only [Option.some.injEq, Prod.mk.injEq] at h
      simp [← h.2, remaining]

-- All items from here to the end.
def items (lexer : Lexer) : List Item :=
  match _ : lexer.next? with
  | none => []
  | some (item, next) => item :: next.items
termination_by lexer.remaining
decreasing_by exact remaining_scan ‹_›

end Lexer

-- The tokens of a text, or the first fault in it.
def tokenize (text : String) : Except LexFault (List Token) :=
  (Lexer.ofText text).items.mapM id

end Reckoner
