import Reckoner.Number.Numeral
import Reckoner.Report

/-!
The faults of a text that cannot be cut into tokens.
-/

namespace Reckoner

inductive LexFault
  -- A character that no token starts with.
  | strayCharacter (place : Span) (char : Char)
  -- A piece of text that was cut out as a number and cannot be read as one.
  | invalidNumber (place : Span) (cause : Numeral.Fault)
deriving DecidableEq, Repr

namespace LexFault

def place : LexFault → Span
  | strayCharacter place _ | invalidNumber place _ => place

def report : LexFault → Report
  | strayCharacter place char => {
      message := s!"unexpected character: {char}"
      code := "lex::unexpected_character"
      help := s!"remove or correct the character: `{char}`"
      labels := [⟨place, "this character"⟩] }
  | invalidNumber place cause => {
      message := "invalid number literal"
      code := "lex::invalid_number"
      url := "https://doc.rust-lang.org/std/num/struct.ParseFloatError.html"
      cause := cause.message
      labels := [⟨place, "this numeric literal"⟩] }

end LexFault

end Reckoner
