/-!
A console: lines come in and text goes out. Any of its operations may fail, also in the middle of a
line.
-/

namespace Reckoner

-- The bytes that encode a text.
def encodeText (text : String) : List UInt8 :=
  text.toUTF8.data.toList

-- The text that some bytes encode.
def decodeText? (bytes : List UInt8) : Option String :=
  String.fromUTF8? ⟨bytes.toArray⟩

namespace Console

inductive Operation
  | write
  | flush
  | read
deriving DecidableEq, Repr

-- An operation that fails from some time on.
structure Trouble where
  operation : Operation
  -- The number of lines for which the operation still works.
  after : Nat
  -- The number of bytes of the line after them that get through before the operation fails.
  part : Nat
  message : String
deriving DecidableEq, Repr

end Console

structure Console where
  -- The bytes that were not read yet.
  input : List UInt8
  -- All texts that were written.
  output : String
  -- What got through of the text at which writing failed. It stands behind the others.
  torn : List UInt8
  trouble : Option Console.Trouble
deriving DecidableEq, Repr

namespace Console

-- A console without trouble.
def ofInput (input : List UInt8) : Console :=
  ⟨input, "", [], none⟩

-- The end of an operation that failed.
structure Failure where
  message : String
  console : Console
deriving DecidableEq, Repr

-- Does an operation for one line. If it fails then a part of the line may have got through, and
-- nothing of any later one will.
def perform (operation : Operation) (pass : Nat → Console → Console) (console : Console) :
    Except Failure Console :=
  match console.trouble with
  | none => .ok console
  | some trouble =>
    if trouble.operation ≠ operation then .ok console
    else if trouble.after = 0 then
      let stuck : Console := { console with trouble := some { trouble with part := 0 } }
      .error ⟨trouble.message, pass trouble.part stuck⟩
    else .ok { console with trouble := some { trouble with after := trouble.after - 1 } }

-- Writes the first bytes of a text.
def tear (text : String) (part : Nat) (console : Console) : Console :=
  { console with torn := console.torn ++ (encodeText text).take part }

def write (text : String) (console : Console) : Except Failure Console :=
  (console.perform .write (tear text)).map fun console =>
    { console with output := console.output ++ text }

def flush (console : Console) : Except Failure Console :=
  console.perform .flush fun _ console => console

-- The first line of some bytes, with the line feed that ends it if there is one, and what follows
-- the line.
def splitLine : List UInt8 → List UInt8 × List UInt8
  | [] => ([], [])
  | byte :: rest =>
    if byte = 10 then ([byte], rest)
    else
      let (line, rest) := splitLine rest
      (byte :: line, rest)

-- Takes the first bytes of a line. With its line feed the line would have been read.
def drain (part : Nat) (console : Console) : Console :=
  let taken := (console.input.takeWhile (· ≠ 10)).take part
  { console with input := console.input.drop taken.length }

-- Reads a line. At the end of the input there is none, and the operation is not used up.
def readLine (console : Console) : Except Failure (Option (List UInt8) × Console) :=
  (console.perform .read drain).map fun next =>
    match console.input with
    | [] => (none, console)
    | input =>
      let (line, rest) := splitLine input
      (some line, { next with input := rest })

end Console

end Reckoner
