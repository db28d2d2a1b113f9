import Reckoner.Text.Unprintable

/-!
Quoted texts: a text between double quotes, in which each character that cannot be seen or would
end the quotation is written by an escape.
-/

namespace Reckoner.Text

-- The letter that stands for a character after a backslash.
def escapeLetter? : Char → Option Char
  | '"'  => some '"'
  | '\\' => some '\\'
  | '\n' => some 'n'
  | '\r' => some 'r'
  | '\t' => some 't'
  | '\x00' => some '0'
  | _    => none

-- The code point of a character in lower-case hexadecimal, between braces.
def codeEscape (c : Char) : List Char :=
  ['\\', 'u', Char.ofNat 0x7B] ++ Nat.toDigits 16 c.toNat ++ [Char.ofNat 0x7D]

-- A character as it is written inside quotes.
def quotedChar (c : Char) : List Char :=
  match escapeLetter? c with
  | some letter => ['\\', letter]
  | none => if isUnprintable c then codeEscape c else [c]

def quoted (text : String) : String :=
  String.ofList (['"'] ++ text.toList.flatMap quotedChar ++ ['"'])

end Reckoner.Text
