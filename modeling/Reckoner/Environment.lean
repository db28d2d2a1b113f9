import Reckoner.Functions

/-!
Environments: the values of variables, and the functions, that an expression is evaluated with.
-/

namespace Reckoner

-- The bound variables and their values.
abbrev Variables := Std.ExtTreeMap String Float

structure Environment where
  «variables» : Variables
  functions : Functions

namespace Environment

def empty : Environment :=
  ⟨∅, .empty⟩

def withBuiltins : Environment :=
  ⟨∅, .builtin⟩

def get? (environment : Environment) (name : String) : Option Float :=
  environment.variables[name]?

-- Binds a variable, whether it was bound before or not.
def define (environment : Environment) (name : String) (value : Float) : Environment :=
  { environment with «variables» := environment.variables.insert name value }

def register (environment : Environment) (name : String) (function : Float → Float) :
    Environment :=
  { environment with functions := environment.functions.register name function }

def remove (environment : Environment) (name : String) : Environment :=
  { environment with functions := environment.functions.remove name }

end Environment

end Reckoner
