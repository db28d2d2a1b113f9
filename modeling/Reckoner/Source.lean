/-!
Source texts and places in them. Places are counted in bytes of the UTF-8 encoding.
-/

namespace Reckoner

-- The number of bytes of a text.
def byteSize (text : List Char) : Nat :=
  text.foldr (fun c size => c.utf8Size + size) 0

-- A run of bytes in a text.
structure Span where
  offset : Nat
  length : Nat
deriving DecidableEq, Repr

-- A text and the name under which reports speak of it.
structure Source where
  name : Option String
  text : String
deriving DecidableEq, Repr

namespace Source

-- A text that was not read from a file has no name of its own.
def title (source : Source) : String :=
  source.name.getD "<input>"

def byteSize (source : Source) : Nat :=
  Reckoner.byteSize source.text.toList

-- The part of a text before an offset, if the offset is the start of a character or the end of the
-- text.
def before? : Nat → List Char → Option (List Char)
  | 0, _ => some []
  | _ + 1, [] => none
  | n + 1, c :: rest =>
    if c.utf8Size ≤ n + 1 then (before? (n + 1 - c.utf8Size) rest).map (c :: ·) else none

-- The line of an offset, from 1 on. An offset that is no place in the text counts as the end of the
-- text.
def lineAt (source : Source) (offset : Nat) : Nat :=
  let text := source.text.toList
  ((before? offset text).getD text).count '\n' + 1

end Source

end Reckoner
