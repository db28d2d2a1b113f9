import Reckoner.Event
import Reckoner.Functions
import Reckoner.Parser.Fault
import Reckoner.Token
import Reckoner.Tree

/-!
The state of a parser between two tokens.

A left operand and its operator wait until the right operand is complete. It is complete at the
first operator that binds no tighter than the waiting one, so operators of one precedence are
folded to the left, and from the bottom to the top of the waiting ones each binds tighter than the
one below it. A parenthesis sets what waits aside until it is closed.
-/

namespace Reckoner.Parser

-- Left operands that wait for the right operand of their operators, the last one first.
abbrev Pending := List (Tree × Operator)

namespace Pending

-- Completes an operand: it becomes the right operand of each waiting operator that binds at least
-- as tightly as the given level.
def fold (level : Nat) : Pending → Tree → Pending × Tree
  | [], right => ([], right)
  | (left, op) :: rest, right =>
    if level ≤ op.precedence then fold level rest (.binary op left right)
    else ((left, op) :: rest, right)

-- Completes an operand as an expression.
def foldAll (pending : Pending) (right : Tree) : Tree :=
  (pending.fold 0 right).2

end Pending

-- What an open parenthesis belongs to, and its place.
inductive Opening
  | group (paren : Span)
  | call (function : String) (paren : Span)
deriving DecidableEq, Repr

namespace Opening

-- What is made of the expression in parentheses.
def close : Opening → Tree → Tree
  | group _, inner         => inner
  | call function _, inner => .call function inner

-- The fault when something else is found in the place of the closing parenthesis.
def unclosed : Opening → Span → ParseFault
  | group paren, found  => .unclosedGroup found paren
  | call _ paren, found => .unclosedCall found paren

end Opening

-- An open parenthesis and what waits outside of it.
structure Frame where
  opening : Opening
  pending : Pending
deriving DecidableEq, Repr

-- What the next token has to be.
inductive Expecting
  | operand
  -- The parenthesis after the name of a function.
  | callParen (function : String)
  -- An operator, or the end of the expression, after an operand.
  | operator (left : Tree)
deriving DecidableEq, Repr

structure State where
  -- The open parentheses, the innermost one first.
  frames : List Frame
  pending : Pending
  expecting : Expecting
deriving DecidableEq, Repr

-- What a token does.
inductive Step
  -- It is taken.
  | shift (state : State)
  -- It is an operator, which is taken.
  | fold (op : Operator) (state : State)
  -- It is left behind a complete expression.
  | done (tree : Tree)
  -- It is a fault, and it is taken or left.
  | fail (fault : ParseFault) (taken : Bool)

namespace State

-- The state before the first token of an expression.
def start : State :=
  ⟨[], [], .operand⟩

-- Opens a parenthesis.
def enter (state : State) (opening : Opening) : State :=
  ⟨⟨opening, state.pending⟩ :: state.frames, [], .operand⟩

-- Takes an operand.
def operand (state : State) (tree : Tree) : State :=
  { state with expecting := .operator tree }

-- A token where an operand is due.
def stepOperand (functions : Functions) (state : State) (token : Token) : Step :=
  match token.kind with
  | .number value => .shift (state.operand (.number value))
  | .identifier =>
    if functions.contains token.literal then
      .shift { state with expecting := .callParen token.literal }
    else
      .shift (state.operand (.var token.literal))
  | .leftParen => .shift (state.enter (.group token.span))
  | .eof => .fail (.unexpectedEnd token.offset) false
  | .operator _ | .rightParen | .comma =>
    .fail (.unexpectedToken token.span token.text) true

-- A token after the name of a function.
def stepCallParen (function : String) (state : State) (token : Token) : Step :=
  match token.kind with
  | .leftParen => .shift (state.enter (.call function token.span))
  | _ => .fail (.missingCallParen token.span function) false

-- A token after an operand.
def stepOperator (left : Tree) (state : State) (token : Token) : Step :=
  match token.kind, state.frames with
  | .operator op, _ =>
    let (pending, left) := state.pending.fold op.precedence left
    .fold op { state with pending := (left, op) :: pending, expecting := .operand }
  | _, [] => .done (state.pending.foldAll left)
  | .rightParen, ⟨opening, pending⟩ :: frames =>
    .shift ⟨frames, pending, .operator (opening.close (state.pending.foldAll left))⟩
  | _, ⟨opening, _⟩ :: _ => .fail (opening.unclosed token.span) false

def step (functions : Functions) (state : State) (token : Token) : Step :=
  match state.expecting with
  | .operand            => state.stepOperand functions token
  | .callParen function => state.stepCallParen function token
  | .operator left      => state.stepOperator left token

end State

end Reckoner.Parser
