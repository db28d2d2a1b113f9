import Reckoner.Environment
import Reckoner.Error

/-!
Resolvers: where the values of variables come from that are not bound.
-/

namespace Reckoner

-- An answer to the request for a variable.
inductive Reply
  | value (value : Float)
  -- No value is known, and the variable stays undefined.
  | nothing
  -- The input from which values come has ended.
  | ended
  | failed (fault : EvalFault)
deriving DecidableEq, Repr

-- A resolver answers requests one after the other, each in the state that the one before left.
structure Resolver (σ : Type) where
  resolve : String → σ → Reply × σ

namespace Reply

-- A value that may be missing.
def ofOption : Option Float → Reply
  | some x => value x
  | none   => nothing

end Reply

namespace Resolver

-- Answers nothing.
def never : Resolver Unit where
  resolve _ _ := (.nothing, ())

-- Answers what a partial function on names gives.
def ofFunction (value? : String → Option Float) : Resolver Unit where
  resolve name _ := (.ofOption (value? name), ())

-- Answers from a table in which the first entry of a name counts.
def ofList (entries : List (String × Float)) : Resolver Unit :=
  ofFunction fun name => entries.lookup name

-- Answers whatever is asked for with the next one of a list of answers, while they last.
def sequence : Resolver (List (Option Float)) where
  resolve _
    | []             => (.nothing, [])
    | answer :: rest => (.ofOption answer, rest)

end Resolver

end Reckoner
