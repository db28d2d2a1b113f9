import Reckoner.Report

/-!
The faults of a list of tokens that is no expression.
-/

namespace Reckoner

inductive ParseFault
  -- The name of a function stands without its parenthesis.
  | missingCallParen (found : Span) (function : String)
  -- The argument of a call is not followed by the closing parenthesis.
  | unclosedCall (found opened : Span)
  -- An expression in parentheses is not followed by the closing one.
  | unclosedGroup (found opened : Span)
  -- A token stands where an operand is due.
  | unexpectedToken (found : Span) (text : String)
  -- The input ends too early.
  | unexpectedEnd (offset : Nat)
  -- A token follows a complete expression.
  | trailingInput (found : Span) (text : String)
deriving DecidableEq, Repr

namespace ParseFault

def place : ParseFault → Span
  | missingCallParen found _
  | unclosedCall found _
  | unclosedGroup found _
  | unexpectedToken found _
  | trailingInput found _ => found
  | unexpectedEnd offset => ⟨offset, 0⟩

def report (fault : ParseFault) : Report :=
  match fault with
  | missingCallParen _ function => {
      message := s!"expected '(' after function name: {function}"
      code := "parse::missing_call_paren"
      help := s!"`{function}` is a function, call it as `{function}(...)`"
      labels := [⟨fault.place, "expected `(` here"⟩] }
  | unclosedCall _ opened => {
      message := "expected ')' after function argument"
      code := "parse::unclosed_call"
      labels := [⟨fault.place, "expected `)` here"⟩, ⟨opened, "call starts here"⟩] }
  | unclosedGroup _ opened => {
      message := "expected ')'"
      code := "parse::unclosed_group"
      labels := [⟨fault.place, "expected `)` here"⟩, ⟨opened, "group opened here"⟩] }
  | unexpectedToken _ text => {
      message := s!"unexpected token: {text}"
      code := "parse::unexpected_token"
      help := "expected a number, a name or `(`"
      labels := [⟨fault.place, "here"⟩] }
  | unexpectedEnd _ => {
      message := "unexpected end of input"
      code := "parse::unexpected_eof"
      help := "the expression ended early, possibly missing an operand or a closing parenthesis"
      labels := [⟨fault.place, "input ends here"⟩] }
  | trailingInput _ text => {
      message := s!"unexpected trailing input: {text}"
      code := "parse::trailing_input"
      help := "everything after a complete expression must be removed"
      labels := [⟨fault.place, "expression already ended"⟩] }

end ParseFault

end Reckoner
