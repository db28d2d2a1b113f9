import Reckoner.Parser.State

/-!
The parser reads tokens as an expression:

    expression := term (('+' | '-') term)*
    term       := power (('*' | '/') power)*
    power      := factor ('^' factor)*
    factor     := NUMBER | IDENTIFIER | IDENTIFIER '(' expression ')' | '(' expression ')'

All operators are folded to the left, `^` included, so `2^3^2` is `(2^3)^2`. An identifier is a
call exactly when it is the name of a function, and parentheses leave no trace in the tree. What is
read is what a recursive descent through this grammar reads (`parseExpression_eq_descent`).
-/

namespace Reckoner

-- A parser on its way through a list of tokens.
structure Parser where
  functions : Functions
  -- The text that the tokens came from.
  source : Source
  -- The tokens that are left.
  rest : List Token
  -- The number of tokens that were taken.
  index : Nat

namespace Parser

-- What one expression was read as, the parser behind it, and what was recorded on the way.
structure Reading where
  result : Except ParseFault Tree
  parser : Parser
  events : List Event

-- A parser before the first of some tokens. Tokens that come from nowhere have the empty text as
-- their source.
def ofTokens (functions : Functions) (source : Source) (tokens : List Token) : Parser :=
  ⟨functions, source, tokens, 0⟩

-- Reads on from a state inside of an expression. Where the tokens run out without one for the end
-- of input, the fault is at the end of the source.
def readFrom (functions : Functions) (source : Source) : State → List Token → Nat → Reading
  | _, [], index =>
    ⟨.error (.unexpectedEnd source.byteSize), ⟨functions, source, [], index⟩, []⟩
  | state, token :: rest, index =>
    match state.step functions token with
    | .shift state => readFrom functions source state rest (index + 1)
    | .fold op state =>
      let reading := readFrom functions source state rest (index + 1)
      { reading with events := .folding op index :: reading.events }
    | .done tree => ⟨.ok tree, ⟨functions, source, token :: rest, index⟩, []⟩
    | .fail fault true => ⟨.error fault, ⟨functions, source, rest, index + 1⟩, []⟩
    | .fail fault false => ⟨.error fault, ⟨functions, source, token :: rest, index⟩, []⟩

-- Reads one expression and stops at the first token that cannot go on with it.
def parseExpression (parser : Parser) : Reading :=
  readFrom parser.functions parser.source .start parser.rest parser.index

-- Reads one expression, which must reach up to the end of input.
def parse (parser : Parser) : Except ParseFault Tree × List Event :=
  let reading := parser.parseExpression
  match reading.result, reading.parser.rest with
  | .error fault, _ => (.error fault, reading.events)
  | .ok _, [] => (.error (.unexpectedEnd parser.source.byteSize), reading.events)
  | .ok tree, token :: _ =>
    if token.kind = .eof then (.ok tree, reading.events ++ [.parsed tree.depth])
    else (.error (.trailingInput token.span token.text), reading.events)

end Parser

end Reckoner
