import Reckoner.Number.Numeral
import Reckoner.Text.ControlSequence
import Reckoner.Text.WhiteSpace

/-!
The command line: a command, then options and at most one expression in any order.

    tokenize, parse, eval    [EXPRESSION] [-f FILE | --file FILE]
    eval                     [-D NAME=VALUE | --var NAME=VALUE]... [--no-prompt]

The value of an option is the argument after it or is attached to it. A value is judged when the
next option or the expression comes, so the first of several faults is the one that is reported,
except that an unknown option and a second expression are always refused as such. After `--` every
argument is an expression.
-/

namespace Reckoner

inductive Command
  | tokenize
  | parse
  | eval
deriving DecidableEq, Repr

-- Where the expression comes from.
inductive Origin
  | expression (text : String)
  | file (name : String)
  -- The first line of the input.
  | input
deriving DecidableEq, Repr

-- What the arguments ask for.
structure Invocation where
  command : Command
  origin : Origin
  -- Variables and their values, the first binding first.
  bindings : List (String × Float)
  -- Whether variables that are not bound are asked for.
  prompts : Bool
deriving DecidableEq, Repr

namespace CommandLine

-- Why arguments are refused.
inductive Refusal
  | usage
  -- The value of a binding option cannot be read.
  | invalidBinding (text message : String)
deriving DecidableEq, Repr

namespace Refusal

-- What is told about a refusal, for a terminal with colours.
def styled (refusal : Refusal) : String :=
  let reason := match refusal with
    | usage => "invalid arguments"
    | invalidBinding text message =>
      "invalid value '" ++ Text.rendered ["33"] text ++ "' for '" ++
        Text.rendered ["1"] "--var <NAME=VALUE>" ++ "': " ++ message
  Text.rendered ["1", "31"] "error:" ++ " " ++ reason ++ "\n\nFor more information, try '" ++
    Text.rendered ["1"] "--help" ++ "'.\n"

-- What is told about a refusal. Arguments can hold control sequences too, and one that is not
-- complete takes in what follows it, up to the next change of colour.
def message (refusal : Refusal) : String :=
  Text.shown refusal.styled

end Refusal

-- The name and the value of a binding `NAME=VALUE`. The value begins behind the first equals sign.
def binding (text : String) : Except String (String × Float) :=
  match text.toList.dropWhile (· ≠ '=') with
  | [] => .error s!"`{text}` is not of the form NAME=VALUE"
  | _ :: value =>
    let name := Text.trim (text.toList.takeWhile (· ≠ '='))
    match Numeral.read (Text.trim value) with
    | .ok number => .ok (String.ofList name, number)
    | .error fault =>
      .error ("`" ++ String.ofList value ++ "` is not a number: " ++ fault.message)

inductive Switch
  | file
  | binding
  | noPrompt
deriving DecidableEq, Repr

-- One argument by its form.
inductive Argument
  -- Two hyphens, behind which there are no options.
  | escape
  -- An option that the command knows or does not know, with the value that is attached to it.
  | option (switch : Option Switch) (attached : Option String)
  | word (text : String)
deriving DecidableEq, Repr

namespace Argument

-- The option with a long name.
def long? (command : Command) (name : List Char) : Option Switch :=
  match String.ofList name, command with
  | "file", _          => some .file
  | "var", .eval       => some .binding
  | "no-prompt", .eval => some .noPrompt
  | _, _               => none

-- The option with a name of one letter.
def short? : Command → Char → Option Switch
  | _, 'f'     => some .file
  | .eval, 'D' => some .binding
  | _, _       => none

-- The form of an argument. A lone hyphen is a word, and so is what does not begin with one.
def ofText (command : Command) (text : String) : Argument :=
  match text.toList with
  | ['-', '-'] => .escape
  | '-' :: '-' :: long =>
    let switch := long? command (long.takeWhile (· ≠ '='))
    match long.dropWhile (· ≠ '=') with
    | []         => .option switch none
    | _ :: value => .option switch (some (String.ofList value))
  | '-' :: letter :: attached =>
    let switch := short? command letter
    match attached with
    | []           => .option switch none
    | '=' :: value => .option switch (some (String.ofList value))
    | value        => .option switch (some (String.ofList value))
  | _ => .word text

end Argument

-- What was read of the arguments so far.
structure Draft where
  expression : Option String
  file : Option String
  bindings : List (String × Float)
  noPrompt : Bool
  -- The last option, if its value is still due or not judged yet.
  pending : Option (Switch × Option String)
deriving DecidableEq, Repr

namespace Draft

def empty : Draft :=
  ⟨none, none, [], false, none⟩

-- Takes an option with its value. Only bindings may be repeated, and a file needs a name.
def take (draft : Draft) : Switch → Option String → Except Refusal Draft
  | .file, some name =>
    if draft.file.isSome ∨ name = "" then .error .usage
    else .ok { draft with file := some name }
  | .binding, some text =>
    match CommandLine.binding text with
    | .ok entry => .ok { draft with bindings := draft.bindings ++ [entry] }
    | .error message => .error (.invalidBinding text message)
  | .noPrompt, none =>
    if draft.noPrompt then .error .usage else .ok { draft with noPrompt := true }
  | _, _ => .error .usage

-- Takes the option that is pending.
def settle (draft : Draft) : Except Refusal Draft :=
  match draft.pending with
  | none => .ok draft
  | some (switch, value) => { draft with pending := none }.take switch value

-- Takes an expression.
def word (draft : Draft) (text : String) : Except Refusal Draft :=
  if draft.expression.isSome then .error .usage
  else draft.settle.map fun draft => { draft with expression := some text }

-- Takes an option, which is pending if it needs a value and has none attached.
def option (draft : Draft) : Switch → Option String → Except Refusal Draft
  | .noPrompt, some _ => .error .usage
  | .noPrompt, none => draft.settle >>= (take · .noPrompt none)
  | switch, some value => draft.settle >>= (take · switch (some value))
  | switch, none => draft.settle.map fun draft => { draft with pending := some (switch, none) }

-- Takes an argument that is not behind two hyphens.
def argument (draft : Draft) : Argument → Except Refusal Draft
  | .option none _ => .error .usage
  | .option (some switch) attached => draft.option switch attached
  | .word text =>
    match draft.pending with
    | some (switch, none) => .ok { draft with pending := some (switch, some text) }
    | _ => draft.word text
  | .escape => .ok draft

-- Takes all arguments.
def arguments (command : Command) (draft : Draft) : List String → Except Refusal Draft
  | [] => .ok draft
  | text :: rest =>
    match Argument.ofText command text with
    | .escape => rest.foldlM word draft
    | form => draft.argument form >>= (arguments command · rest)

-- Where the expression comes from in the end.
def origin (draft : Draft) : Except Refusal Origin :=
  match draft.expression, draft.file with
  | some _, some _     => .error .usage
  | some text, none    => .ok (.expression text)
  | none, some name    => .ok (.file name)
  | none, none         => .ok .input

end Draft

def command? : String → Option Command
  | "tokenize" => some .tokenize
  | "parse"    => some .parse
  | "eval"     => some .eval
  | _          => none

-- What the arguments ask for, or why they are refused.
def read : List String → Except Refusal Invocation
  | [] => .error .usage
  | name :: arguments =>
    match command? name with
    | none => .error .usage
    | some command => do
      let draft ← Draft.empty.arguments command arguments
      let draft ← draft.settle
      let origin ← draft.origin
      return ⟨command, origin, draft.bindings, !draft.noPrompt⟩

end CommandLine

end Reckoner
