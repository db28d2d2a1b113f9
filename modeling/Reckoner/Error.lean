import Reckoner.Parser.Fault
import Reckoner.Token.Fault

/-!
The errors of all stages: cutting a text into tokens, reading the tokens as an expression, and
evaluating the expression.
-/

namespace Reckoner

-- Why an expression has no value.
inductive EvalFault
  | undefinedVariable (name : String)
  -- Asking for the value of a variable went wrong.
  | unresolved (name message : String)
  -- The name of a function stands where a variable is due.
  | missingArgument (function : String)
  -- Something is called that is no function.
  | notAFunction (name : String)
deriving DecidableEq, Repr

def EvalFault.report : EvalFault → Report
  | undefinedVariable name => {
      message := s!"undefined variable: {name}"
      code := "eval::undefined_variable"
      help := s!"bind `{name}` in the variable environment before evaluating" }
  | unresolved name message => {
      message := s!"could not resolve variable `{name}`: {message}"
      code := "eval::resolve" }
  | missingArgument function => {
      message := s!"function `{function}` has no argument"
      code := "eval::missing_argument"
      help := s!"`{function}` was registered as a function after the tree was built" }
  | notAFunction name => {
      message := s!"`{name}` is called but is not a registered function"
      code := "eval::not_a_function"
      help := s!"`{name}` was removed from the function registry after the tree was built" }

-- An error of any stage. Those of the first two have a place in a source.
inductive Error
  | lex (source : Source) (fault : LexFault)
  | parse (source : Source) (fault : ParseFault)
  | eval (fault : EvalFault)
deriving DecidableEq, Repr

namespace Error

def report : Error → Report
  | lex _ fault   => fault.report
  | parse _ fault => fault.report
  | eval fault    => fault.report

-- The source of an error and the place of the error in it.
def place? : Error → Option (Source × Span)
  | lex source fault   => some (source, fault.place)
  | parse source fault => some (source, fault.place)
  | eval _             => none

def message (error : Error) : String :=
  error.report.message

-- The line of an error, if it has a place.
def line? (error : Error) : Option Nat :=
  error.place?.map fun (source, place) => source.lineAt place.offset

end Error

end Reckoner
