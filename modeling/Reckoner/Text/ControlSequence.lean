/-!
Texts for terminals. Besides the characters that are shown, such a text holds control characters
and control sequences, which say how to show it. Where a text goes elsewhere they are left out.

A control sequence begins with the escape character. What follows tells its form, and the form tells
where it ends. The escape character also ends the sequence before it, and two more control
characters end any sequence.
-/

namespace Reckoner.Text

-- How far a control sequence was read.
inductive ControlSequence
  -- Behind the escape character.
  | escape
  -- Behind the escape character and intermediate characters.
  | intermediate
  -- In a control function.
  | function
  -- At the head of a device control string, behind its parameters, and behind intermediate
  -- characters.
  | device
  | deviceParameter
  | deviceIntermediate
  -- In a string that reaches up to a terminator.
  | string
  -- In a command to the operating system.
  | command
deriving DecidableEq, Repr

def isIntermediate (c : Char) : Bool :=
  ' ' ≤ c && c ≤ '/'

def isParameter (c : Char) : Bool :=
  '0' ≤ c && c ≤ '?'

def isFinal (c : Char) : Bool :=
  '@' ≤ c && c ≤ '~'

-- The terminator of strings is one byte, which counts also inside of a longer character.
def isTerminator (c : Char) : Bool :=
  0x80 ≤ c.toNat && (String.utf8EncodeChar c).contains 0x9C

-- Control characters that separate words and lines.
def isSeparator (c : Char) : Bool :=
  c == '\t' || c == '\n' || c == '\x0c' || c == '\r'

-- The other control characters, none of which is shown.
def isControl (c : Char) : Bool :=
  (c < ' ' && !isSeparator c) || c == '\x7f'

namespace ControlSequence

-- The sequence behind one more character of it, if it goes on.
def next : ControlSequence → Char → Option ControlSequence
  | escape, '[' => some function
  | escape, ']' => some command
  | escape, 'P' => some device
  | escape, 'X' => some string
  | escape, '^' => some string
  | escape, '_' => some string
  | escape, c =>
    if isIntermediate c then some intermediate
    else if isParameter c || isFinal c then none
    else some escape
  | intermediate, c => if isParameter c || isFinal c then none else some intermediate
  | function, c => if isFinal c then none else some function
  | device, c =>
    if isIntermediate c then some deviceIntermediate
    else if isParameter c then some deviceParameter
    else if isFinal c then some string
    else some device
  | deviceParameter, c =>
    if isIntermediate c then some deviceIntermediate
    else if '<' ≤ c && c ≤ '~' then some string
    else some deviceParameter
  | deviceIntermediate, c =>
    if isParameter c || isFinal c then some string else some deviceIntermediate
  | string, c => if isTerminator c then none else some string
  | command, c => if c = '\x07' then none else some command

-- Whether separators in a sequence are shown. They are where no string is read.
def isOpen : ControlSequence → Bool
  | escape | intermediate | function => true
  | _ => false

end ControlSequence

-- A place in a text for terminals.
inductive Place
  | outside
  | inside (sequence : ControlSequence)
  -- Behind a separator in a sequence. What follows is shown up to the next control character, with
  -- which the sequence goes on.
  | aside (sequence : ControlSequence)
deriving DecidableEq, Repr

namespace Place

-- The place behind a character, and whether the character is shown.
def step (place : Place) (c : Char) : Place × Bool :=
  if c = '\x1b' then (inside .escape, false)
  else if c = '\x18' ∨ c = '\x1a' then (outside, false)
  else
    match place with
    | outside => (outside, !isControl c)
    | inside sequence =>
      if sequence.isOpen && isSeparator c then (aside sequence, true)
      else
        match sequence.next c with
        | some sequence => (inside sequence, false)
        | none          => (outside, false)
    | aside sequence =>
      if isControl c then (inside sequence, false)
      else if c.toNat < 0x80 then (aside sequence, true)
      else (outside, true)

-- The characters that are shown of a text from a place on.
def shown (place : Place) : List Char → List Char
  | [] => []
  | c :: rest =>
    let (next, visible) := place.step c
    if visible then c :: next.shown rest else next.shown rest

end Place

-- A text for terminals without its control characters and control sequences.
def shown (text : String) : String :=
  String.ofList (Place.outside.shown text.toList)

-- A text with the given renditions, such as bold or a colour.
def rendered (renditions : List String) (text : String) : String :=
  String.join (renditions.map fun code => "\x1b[" ++ code ++ "m") ++ text ++ "\x1b[0m"

end Reckoner.Text
