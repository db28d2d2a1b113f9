import Reckoner.Event
import Reckoner.Resolver
import Reckoner.Tree

/-!
Evaluation of trees. Operands are evaluated from left to right. A variable that is not bound is
asked for, and a value that comes back is bound before the evaluation goes on, so no variable is
asked for again once it has a value. Nothing else in the environment changes.
-/

namespace Reckoner

-- What an evaluation gives and what it leaves behind.
structure Evaluation (σ : Type) where
  result : Except EvalFault Float
  bindings : Variables
  -- The state of the resolver.
  resolver : σ
  -- What was recorded, in order.
  events : List Event

variable {σ : Type}

namespace Evaluation

-- Goes on with the value of an evaluation, unless it failed.
def andThen (first : Evaluation σ) (next : Float → Variables → σ → Evaluation σ) : Evaluation σ :=
  match first.result with
  | .error _ => first
  | .ok value =>
    let second := next value first.bindings first.resolver
    { second with events := first.events ++ second.events }

-- A value that changes nothing.
def value (value : Float) (bindings : Variables) (state : σ) : Evaluation σ :=
  ⟨.ok value, bindings, state, []⟩

-- A failure that changes nothing.
def fail (fault : EvalFault) (bindings : Variables) (state : σ) : Evaluation σ :=
  ⟨.error fault, bindings, state, []⟩

end Evaluation

-- Asks for a variable that is not bound, and binds it to the value that comes back.
def ask (resolver : Resolver σ) (name : String) (bindings : Variables) (state : σ) :
    Evaluation σ :=
  let (reply, state) := resolver.resolve name state
  match reply with
  | .value x      => ⟨.ok x, bindings.insert name x, state, [.asking name]⟩
  | .nothing      => ⟨.error (.undefinedVariable name), bindings, state, [.asking name]⟩
  | .ended        =>
    ⟨.error (.undefinedVariable name), bindings, state, [.asking name, .inputClosed name]⟩
  | .failed fault => ⟨.error fault, bindings, state, [.asking name]⟩

-- The value of a variable.
def lookUp (resolver : Resolver σ) (name : String) (bindings : Variables) (state : σ) :
    Evaluation σ :=
  match bindings[name]? with
  | some value => .value value bindings state
  | none       => ask resolver name bindings state

-- The value of a tree. Whether a name is a function is judged before anything below it is
-- evaluated.
def evaluate (functions : Functions) (resolver : Resolver σ) :
    Tree → Variables → σ → Evaluation σ
  | .number value, bindings, state => .value value bindings state
  | .var name, bindings, state =>
    if functions.contains name then .fail (.missingArgument name) bindings state
    else lookUp resolver name bindings state
  | .call name argument, bindings, state =>
    match functions.get? name with
    | none => .fail (.notAFunction name) bindings state
    | some function =>
      (evaluate functions resolver argument bindings state).andThen fun x bindings state =>
        ⟨.ok (function x), bindings, state, [.applied name x (function x)]⟩
  | .binary op left right, bindings, state =>
    (evaluate functions resolver left bindings state).andThen fun x bindings state =>
      (evaluate functions resolver right bindings state).andThen fun y bindings state =>
        .value (op.apply x y) bindings state

end Reckoner
