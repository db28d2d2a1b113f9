/-!
The binary operators.
-/

namespace Reckoner

inductive Operator
  | plus
  | minus
  | times
  | divide
  | power
deriving DecidableEq, Repr

namespace Operator

def symbol : Operator → Char
  | plus   => '+'
  | minus  => '-'
  | times  => '*'
  | divide => '/'
  | power  => '^'

def ofSymbol? : Char → Option Operator
  | '+' => some plus
  | '-' => some minus
  | '*' => some times
  | '/' => some divide
  | '^' => some power
  | _   => none

-- How tightly an operator binds its operands.
def precedence : Operator → Nat
  | plus | minus   => 1
  | times | divide => 2
  | power          => 3

-- Division is that of binary64, so division by zero gives an infinity or `NaN`.
def apply : Operator → Float → Float → Float
  | plus,   x, y => x + y
  | minus,  x, y => x - y
  | times,  x, y => x * y
  | divide, x, y => x / y
  | power,  x, y => x.pow y

theorem ofSymbol?_symbol (op : Operator) : ofSymbol? op.symbol = some op := by
  cases op <;> rfl

end Operator

end Reckoner
