import Reckoner.Calculation

/-!
Sessions: one environment and the trees that were made in it, over any number of steps. An error in
one step leaves the session open for the next.
-/

namespace Reckoner

structure Session where
  environment : Environment
  -- The trees that were made, the first one first.
  trees : List Tree

namespace Session

def ofEnvironment (environment : Environment) : Session :=
  ⟨environment, []⟩

-- Adds a tree, and gives its index.
def plant (session : Session) (tree : Tree) : Nat × Session :=
  (session.trees.length, { session with trees := session.trees ++ [tree] })

-- Builds the tree of a source and adds it.
def build (session : Session) (source : Source) : Recorded (Nat × Tree) × Session :=
  match Reckoner.build session.environment.functions source with
  | ⟨.error error, events⟩ => (⟨.error error, events⟩, session)
  | ⟨.ok tree, events⟩ =>
    let (index, session) := session.plant tree
    (⟨.ok (index, tree), events⟩, session)

variable {σ : Type}

-- What the evaluation of several trees gives and what it leaves behind.
structure Answers (σ : Type) where
  results : List (Except Error Float)
  environment : Environment
  resolver : σ
  events : List Event

-- Evaluates trees one after the other with one resolver.
def evaluateAll (resolver : Resolver σ) : List Tree → Environment → σ → Answers σ
  | [], environment, state => ⟨[], environment, state, []⟩
  | tree :: rest, environment, state =>
    let first := environment.evaluate resolver tree state
    let others := evaluateAll resolver rest first.environment first.resolver
    { others with
      results := first.result :: others.results
      events := first.events ++ others.events }

-- Evaluates the trees with the given indices.
def evaluate (session : Session) (resolver : Resolver σ) (indices : List Nat) (state : σ) :
    Answers σ × Session :=
  let trees := indices.filterMap (session.trees[·]?)
  let answers := evaluateAll resolver trees session.environment state
  (answers, { session with environment := answers.environment })

-- Calculates the value of a source. No tree is added.
def calculate (session : Session) (resolver : Resolver σ) (source : Source) (state : σ) :
    Calculation σ × Session :=
  let calculation := session.environment.calculate resolver source state
  (calculation, { session with environment := calculation.environment })

end Session

end Reckoner
