import Reckoner.Number.Layout
import Reckoner.Operator

/-!
The events that are recorded while an expression is read and evaluated.
-/

namespace Reckoner

inductive Event
  -- A text was cut into this many tokens.
  | tokenized (count : Nat)
  -- An operator was read, the token with this index.
  | folding (op : Operator) (index : Nat)
  -- A whole expression was read.
  | parsed (depth : Nat)
  -- A variable without a value is asked for.
  | asking (name : String)
  -- The input ended where the value of a variable was to be read.
  | inputClosed (name : String)
  -- A function was applied.
  | applied (function : String) (argument result : Float)
deriving DecidableEq, Repr

namespace Event

inductive Level
  | debug
  | trace
deriving DecidableEq, Repr

def level : Event → Level
  | folding .. | applied .. => .trace
  | _ => .debug

def message : Event → String
  | tokenized count => s!"tokenized input into {count} tokens"
  | folding op index => s!"folding `{op.symbol}` at token {index}"
  | parsed depth => s!"parsed expression of depth {depth}"
  | asking name => s!"variable `{name}` is unbound, asking the resolver"
  | inputClosed name => s!"input closed while asking for `{name}`"
  | applied function argument result =>
    function ++ "(" ++ Layout.plain.write argument ++ ") = " ++ Layout.plain.write result

-- The variables that were asked for, in order.
def askedNames (events : List Event) : List String :=
  events.filterMap fun
    | asking name => some name
    | _ => none

end Event

end Reckoner
