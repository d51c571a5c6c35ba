import Cascade.Text.Extending
import Cascade.Text.Printable

/-!
# Quoted text in messages

A message shows a piece of foreign text between double quotes, in a form that stays on one line
and can be read on any terminal.  A quote, a backslash and the common control characters are
written as a backslash and a letter; other characters that cannot be shown on their own are
written by their code point in hexadecimal.

## Main definitions

* `quotedChar` : the characters that stand for one character.
* `quoted` : a text between double quotes.
-/

namespace Cascade.Text

/-- A character by its code point: a backslash, the letter `u`, and lower-case hexadecimal digits
in braces. -/
def codePoint (c : Char) : List Char :=
  ['\\', 'u', '\x7b'] ++ Nat.toDigits 16 c.toNat ++ ['\x7d']

/-- The characters that stand for one character between double quotes. -/
def quotedChar (c : Char) : List Char :=
  match c with
  | '\x00' => ['\\', '0']
  | '\t' => ['\\', 't']
  | '\r' => ['\\', 'r']
  | '\n' => ['\\', 'n']
  | '\\' => ['\\', '\\']
  | '"' => ['\\', '"']
  | _ => if isExtending c || !isPrintable c then codePoint c else [c]

/-- The text between double quotes. -/
def quoted (text : String) : String :=
  String.ofList ('"' :: text.toList.flatMap quotedChar ++ ['"'])

end Cascade.Text
