import Reckoner.Console
import Reckoner.Number.Numeral
import Reckoner.Resolver
import Reckoner.Text.WhiteSpace

/-!
Asking a person for the values of variables: for each one a line of text goes out to a console and
a line with the value comes in.
-/

namespace Reckoner

namespace Prompt

-- The line that asks for a variable.
def question (name : String) : String :=
  s!"Enter value for variable {name}:\n"

-- The value in a line, white space around it apart, or why there is none.
def answer (line : List UInt8) : Except String Float :=
  match decodeText? line with
  | none => .error "stream did not contain valid UTF-8"
  | some text =>
    let word := Text.trim text.toList
    match Numeral.read word with
    | .ok value => .ok value
    | .error fault =>
      .error ("`" ++ String.ofList word ++ "` is not a number: " ++ fault.message)

-- Asks for a variable and reads the answer.
def request (name : String) (console : Console) : Reply × Console :=
  let failed (message : String) : Reply := .failed (.unresolved name message)
  match console.write (question name) with
  | .error failure => (failed failure.message, failure.console)
  | .ok console =>
    match console.flush with
    | .error failure => (failed failure.message, failure.console)
    | .ok console =>
      match console.readLine with
      | .error failure => (failed failure.message, failure.console)
      | .ok (none, console) => (.ended, console)
      | .ok (some line, console) =>
        match answer line with
        | .error message => (failed message, console)
        | .ok value => (.value value, console)

end Prompt

-- Answers what is typed at a console.
def Resolver.prompt : Resolver Console where
  resolve := Prompt.request

end Reckoner
