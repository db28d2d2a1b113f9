import Reckoner.Program

/-!
The program at a terminal. A run that asks for a value which was not typed yet is repeated with one
line more; as it then writes the same and goes on, only what is new is shown.
-/

namespace Reckoner.Terminal

-- The bytes of the next line of a stream, none at its end.
partial def nextLine (stream : IO.FS.Stream) : IO (List UInt8) := do
  match (← stream.read 1).toList with
  | [] => return []
  | byte :: _ => if byte = 10 then return [byte] else return byte :: (← nextLine stream)

-- Writes the part of the output that was not shown yet.
def showFrom (shown : Nat) (output : String) : IO Unit := do
  let stdout ← IO.getStdout
  stdout.putStr (String.ofList (output.toList.drop shown))
  stdout.flush

-- Runs with what was heard so far, and listens for more where this is not enough.
partial def converse (invocation : Invocation) (file? : String → Option (List UInt8))
    (heard : List UInt8) (shown : Nat) : IO UInt32 := do
  let outcome := Program.invoke invocation ⟨file?, heard⟩
  showFrom shown outcome.output
  if outcome.starved then
    let line ← nextLine (← IO.getStdin)
    if line ≠ [] then
      return ← converse invocation file? (heard ++ line) outcome.output.length
  if let some complaint := outcome.complaint then
    IO.eprintln complaint
  return outcome.status.toUInt32

end Reckoner.Terminal

open Reckoner Terminal in
def main (arguments : List String) : IO UInt32 := do
  match CommandLine.read arguments with
  | .error refusal =>
    IO.eprint refusal.message
    return 2
  | .ok invocation =>
    match invocation.origin with
    | .expression _ => converse invocation (fun _ => none) [] 0
    | .file name =>
      let contents? ← try pure (some (← IO.FS.readBinFile name).toList) catch _ => pure none
      converse invocation (fun _ => contents?) [] 0
    | .input =>
      showFrom 0 Program.heading
      let line ← nextLine (← IO.getStdin)
      converse invocation (fun _ => none) line Program.heading.length
