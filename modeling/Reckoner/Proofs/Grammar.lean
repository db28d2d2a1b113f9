import Mathlib
import Reckoner.Functions
import Reckoner.Token
import Reckoner.Tree

/-!
The grammar of expressions, as a relation between lists of tokens and trees:

    expression := term (('+' | '-') term)*
    term       := power (('*' | '/') power)*
    power      := factor ('^' factor)*
    factor     := NUMBER | IDENTIFIER | IDENTIFIER '(' expression ')' | '(' expression ')'

The relation does not speak of a parser. What stands before the last operator of a phrase is a
phrase of the same kind again, and this is how the grammar says that operators fold to the left.
-/

namespace Reckoner

-- The phrases of the grammar, the loosest one first.
inductive Phrase
  | expression
  | term
  | power
  | factor
deriving DecidableEq, Repr

namespace Phrase

-- What stands on the right of the operators of a phrase. A factor has no operators.
def operand : Phrase → Phrase
  | expression     => term
  | term           => power
  | power | factor => factor

-- The precedence of the operators of a phrase, and for factors a number above all of these.
def level : Phrase → Nat
  | expression => 1
  | term       => 2
  | power      => 3
  | factor     => 4

theorem level_pos (phrase : Phrase) : 0 < phrase.level := by
  cases phrase <;> decide

theorem level_le_factor (phrase : Phrase) : phrase.level ≤ factor.level := by
  cases phrase <;> decide

theorem level_le_operand (phrase : Phrase) : phrase.level ≤ phrase.operand.level := by
  cases phrase <;> decide

end Phrase

-- The phrase that an operator stands in.
def Operator.phrase : Operator → Phrase
  | plus | minus   => .expression
  | times | divide => .term
  | power          => .power

@[simp]
theorem Operator.level_phrase (op : Operator) : op.phrase.level = op.precedence := by
  cases op <;> rfl

@[simp]
theorem Operator.level_operand_phrase (op : Operator) :
    op.phrase.operand.level = op.precedence + 1 := by
  cases op <;> rfl

-- The tokens are a phrase, and the tree is what they stand for. Parentheses leave no node.
inductive Derives (functions : Functions) : Phrase → List Token → Tree → Prop
  | operand {phrase : Phrase} {tokens : List Token} {tree : Tree} :
    Derives functions phrase.operand tokens tree → Derives functions phrase tokens tree
  | fold {op : Operator} {before after : List Token} {symbol : Token} {left right : Tree} :
    Derives functions op.phrase before left → symbol.kind = .operator op →
    Derives functions op.phrase.operand after right →
    Derives functions op.phrase (before ++ symbol :: after) (.binary op left right)
  | number {token : Token} {value : Float} :
    token.kind = .number value → Derives functions .factor [token] (.number value)
  | var {name : Token} :
    name.kind = .identifier → functions.contains name.literal = false →
    Derives functions .factor [name] (.var name.literal)
  | call {name opening closing : Token} {tokens : List Token} {argument : Tree} :
    name.kind = .identifier → functions.contains name.literal = true →
    opening.kind = .leftParen → Derives functions .expression tokens argument →
    closing.kind = .rightParen →
    Derives functions .factor (name :: opening :: tokens ++ [closing])
      (.call name.literal argument)
  | group {opening closing : Token} {tokens : List Token} {tree : Tree} :
    opening.kind = .leftParen → Derives functions .expression tokens tree →
    closing.kind = .rightParen → Derives functions .factor (opening :: tokens ++ [closing]) tree

namespace Derives

variable {functions : Functions} {tokens : List Token} {tree : Tree}

-- A phrase is also a phrase of each looser kind.
theorem loosen {loose tight : Phrase} (h : Derives functions tight tokens tree)
    (hl : loose.level ≤ tight.level) : Derives functions loose tokens tree := by
  cases loose <;> cases tight <;> simp [Phrase.level] at hl
  all_goals first
    | exact h
    | exact .operand h
    | exact .operand (.operand h)
    | exact .operand (.operand (.operand h))

end Derives

end Reckoner
