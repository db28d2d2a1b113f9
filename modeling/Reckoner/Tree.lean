import Reckoner.Number.Layout
import Reckoner.Operator

/-!
Expression trees.
-/

namespace Reckoner

-- An expression. Whether a name stands for a variable or for a function was decided when the tree
-- was made, and it is not checked again before the tree is evaluated.
inductive Tree
  | number (value : Float)
  | var (name : String)
  | call (function : String) (argument : Tree)
  | binary (op : Operator) (left right : Tree)
deriving DecidableEq, Repr

namespace Tree

-- The kinds of node. A variable and a call are both a name, without and with an argument.
inductive Kind
  | number
  | name
  | operator
deriving DecidableEq, Repr

def kind : Tree → Kind
  | number _   => .number
  | var _      => .name
  | call ..    => .name
  | binary ..  => .operator

-- The parts of a tree in the order in which they are evaluated.
def children : Tree → List Tree
  | number _            => []
  | var _               => []
  | call _ argument     => [argument]
  | binary _ left right => [left, right]

-- The number of nodes on the longest way from the root to a leaf.
def depth : Tree → Nat
  | number _            => 1
  | var _               => 1
  | call _ argument     => 1 + argument.depth
  | binary _ left right => 1 + max left.depth right.depth

-- The tree as text: operators and functions stand before their operands, in parentheses.
def chars : Tree → List Char
  | number value => Layout.canonical.chars value
  | var name => name.toList
  | call function argument => '(' :: function.toList ++ ' ' :: argument.chars ++ [')']
  | binary op left right =>
    '(' :: op.symbol :: ' ' :: left.chars ++ ' ' :: right.chars ++ [')']

def write (tree : Tree) : String :=
  String.ofList tree.chars

-- Equality of trees up to equality of numbers, for which `0` is `-0` and `NaN` is no number's
-- equal.
def equals : Tree → Tree → Bool
  | number x, number y => x == y
  | var a, var b => a == b
  | call f x, call g y => f == g && x.equals y
  | binary op x₁ x₂, binary op' y₁ y₂ => op == op' && x₁.equals y₁ && x₂.equals y₂
  | _, _ => false

end Tree

end Reckoner
