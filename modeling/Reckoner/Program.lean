import Reckoner.Calculation
import Reckoner.CommandLine
import Reckoner.Directory
import Reckoner.Prompt

/-!
The program as a function: from its arguments, the files it can read and its input to what it
writes and the status it ends with.
-/

namespace Reckoner

-- How a run of the program ends.
structure Outcome where
  status : Nat
  output : String
  -- The line that is written to the error output.
  complaint : Option String
  -- Whether a value was asked for after the input had ended.
  starved : Bool
deriving DecidableEq, Repr

namespace Program

-- What the program reads: the contents of files by their names, and its input.
structure Resources where
  file? : String → Option (List UInt8)
  input : List UInt8

-- The resources of a program that runs in a directory.
def Resources.ofDirectory (directory : Directory) (input : List UInt8) : Resources :=
  ⟨directory.find?, input⟩

-- What stands before the expression that is read from the input.
def heading : String :=
  "Enter expression:\n"

-- A text up to the end of its first line.
def firstLine (text : String) : String :=
  String.ofList (text.toList.takeWhile (· ≠ '\n'))

-- The end of a run without a complaint.
def finish (status : Nat) (output : String) : Outcome :=
  ⟨status, output, none, false⟩

-- The end of a run with an error. Errors that have a place are told with their line.
def failure (error : Error) (output : String) : Outcome :=
  match error.line? with
  | some line =>
    ⟨65, output, some (firstLine s!"[line {line}] Error: {error.message}"), false⟩
  | none => ⟨70, output, some (firstLine s!"Error: {error.message}"), false⟩

-- The end of a run without a source that can be read.
def unreadable (what output : String) : Outcome :=
  ⟨1, output, some (firstLine s!"Error: reading {what} failed"), false⟩

-- The source of the expression, and the console after it was read. Input that has ended is an empty
-- line.
def source (resources : Resources) : Origin → Except Outcome (Source × Console)
  | .expression text => .ok (⟨none, text⟩, .ofInput resources.input)
  | .file name =>
    match resources.file? name >>= decodeText? with
    | none => .error (unreadable s!"`{name}`" "")
    | some text => .ok (⟨some name, text⟩, .ofInput resources.input)
  | .input =>
    let (line, rest) := Console.splitLine resources.input
    match decodeText? line with
    | none => .error (unreadable "the expression" heading)
    | some text => .ok (⟨none, text⟩, { Console.ofInput rest with output := heading })

-- The listings of the tokens before the first fault, and this fault.
def listings : List Lexer.Item → String × Option LexFault
  | [] => ("", none)
  | .error fault :: _ => ("", some fault)
  | .ok token :: rest =>
    let (text, fault) := listings rest
    (token.listing ++ "\n" ++ text, fault)

def tokenize (source : Source) (output : String) : Outcome :=
  match listings (Lexer.ofText source.text).items with
  | (text, none)       => finish 0 (output ++ text)
  | (text, some fault) => failure (.lex source fault) (output ++ text)

def parse (source : Source) (output : String) : Outcome :=
  match (build .builtin source).result with
  | .error error => failure error output
  | .ok tree     => finish 0 (output ++ tree.write ++ "\n")

-- The end of a calculation.
def conclude (result : Except Error Float) (output : String) : Outcome :=
  match result with
  | .error error => failure error output
  | .ok value    => finish 0 (output ++ "Result: " ++ Layout.canonical.write value ++ "\n")

-- The built-in functions and the variables of the command line.
def environment (bindings : List (String × Float)) : Environment :=
  bindings.foldl (fun environment (name, value) => environment.define name value)
    Environment.withBuiltins

def eval (bindings : List (String × Float)) (prompts : Bool) (source : Source)
    (console : Console) : Outcome :=
  if prompts then
    let calculation := (environment bindings).calculate .prompt source console
    let starved := calculation.events.any fun
      | .inputClosed _ => true
      | _ => false
    { conclude calculation.result calculation.resolver.output with starved }
  else
    let calculation := (environment bindings).calculate .never source ()
    conclude calculation.result console.output

def invoke (invocation : Invocation) (resources : Resources) : Outcome :=
  match source resources invocation.origin with
  | .error outcome => outcome
  | .ok (source, console) =>
    match invocation.command with
    | .tokenize => tokenize source console.output
    | .parse    => parse source console.output
    | .eval     => eval invocation.bindings invocation.prompts source console

-- The whole program.
def run (arguments : List String) (resources : Resources) : Outcome :=
  match CommandLine.read arguments with
  | .ok invocation => invoke invocation resources
  | .error refusal => ⟨2, "", some (firstLine refusal.message), false⟩

end Program

end Reckoner
