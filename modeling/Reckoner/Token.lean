import Reckoner.Number.Layout
import Reckoner.Operator
import Reckoner.Source

/-!
Tokens: the pieces that the text of an expression is cut into.
-/

namespace Reckoner

inductive Token.Kind
  | number (value : Float)
  | operator (op : Operator)
  | identifier
  | leftParen
  | rightParen
  | comma
  | eof
deriving DecidableEq, Repr

-- A token, the piece of text that it was cut from, and the offset of this piece.
structure Token where
  kind : Token.Kind
  literal : String
  offset : Nat
deriving DecidableEq, Repr

namespace Token

def span (token : Token) : Span :=
  ⟨token.offset, byteSize token.literal.toList⟩

-- The token as messages quote it: a number by its value, everything else as it was written.
def text (token : Token) : String :=
  match token.kind with
  | .number value => Layout.canonical.write value
  | _ => token.literal

-- The name of a kind of token in listings.
def Kind.name : Kind → String
  | number _   => "NUMBER"
  | operator _ => "OPERATOR"
  | identifier => "IDENTIFIER"
  | leftParen  => "LEFT_PAREN"
  | rightParen => "RIGHT_PAREN"
  | comma      => "COMMA"
  | eof        => "EOF"

-- The value of a token in listings, which only numbers have.
def Kind.valueText : Kind → String
  | number value => Layout.canonical.write value
  | _ => "null"

-- The line of a token in listings.
def listing (token : Token) : String :=
  token.kind.name ++ " " ++ token.literal ++ " " ++ token.kind.valueText

end Token

end Reckoner
