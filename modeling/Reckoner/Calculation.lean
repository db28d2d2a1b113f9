import Reckoner.Evaluation
import Reckoner.Parser
import Reckoner.Token.Lexer

/-!
From a text to its tree, and from a text to its value.
-/

namespace Reckoner

-- A result and what was recorded on the way to it.
structure Recorded (α : Type) where
  result : Except Error α
  events : List Event

-- The tokens of a source.
def tokens (source : Source) : Recorded (List Token) :=
  match tokenize source.text with
  | .error fault => ⟨.error (.lex source fault), []⟩
  | .ok tokens => ⟨.ok tokens, [.tokenized tokens.length]⟩

-- The tree of a source. The text is cut into tokens to its end before any of them is parsed, so an
-- error in the text itself comes before an error in the order of the tokens.
def build (functions : Functions) (source : Source) : Recorded Tree :=
  match tokens source with
  | ⟨.error error, events⟩ => ⟨.error error, events⟩
  | ⟨.ok tokens, events⟩ =>
    match (Parser.ofTokens functions source tokens).parse with
    | (.error fault, more) => ⟨.error (.parse source fault), events ++ more⟩
    | (.ok tree, more) => ⟨.ok tree, events ++ more⟩

-- What the calculation of a value gives and what it leaves behind.
structure Calculation (σ : Type) where
  result : Except Error Float
  environment : Environment
  -- The state of the resolver.
  resolver : σ
  events : List Event

variable {σ : Type}

-- The value of a tree in an environment.
def Environment.evaluate (environment : Environment) (resolver : Resolver σ) (tree : Tree)
    (state : σ) : Calculation σ :=
  let evaluation :=
    Reckoner.evaluate environment.functions resolver tree environment.variables state
  { result := evaluation.result.mapError .eval
    environment := { environment with «variables» := evaluation.bindings }
    resolver := evaluation.resolver
    events := evaluation.events }

-- The value of a source in an environment. A source without a tree changes nothing and asks for
-- nothing.
def Environment.calculate (environment : Environment) (resolver : Resolver σ) (source : Source)
    (state : σ) : Calculation σ :=
  match build environment.functions source with
  | ⟨.error error, events⟩ => ⟨.error error, environment, state, events⟩
  | ⟨.ok tree, events⟩ =>
    let calculation := environment.evaluate resolver tree state
    { calculation with events := events ++ calculation.events }

end Reckoner
