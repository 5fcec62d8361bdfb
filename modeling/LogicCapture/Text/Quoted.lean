import LogicCapture.Text.Digits
import LogicCapture.Text.Hidden

/-!
Quoted text: a text between double quotes on one line, in which quotes,
backslashes and every character that would not be seen are escaped. The common
control characters have a letter of their own, the others are written by the
number of their code point.
-/

namespace LogicCapture.Text

/-- The letter that stands for a character behind a backslash, if one does. -/
def escapeLetter? : Char → Option Char
  | '"' => some '"'
  | '\\' => some '\\'
  | '\n' => some 'n'
  | '\r' => some 'r'
  | '\t' => some 't'
  | '\x00' => some '0'
  | _ => none

/-- One character between quotes. -/
def escape (c : Char) : List Char :=
  match escapeLetter? c with
  | some letter => ['\\', letter]
  | none =>
    if isHidden c then s!"\\u\x7b{hex 1 c.toNat}\x7d".toList else [c]

/-- The text between quotes. -/
def quoted (text : String) : String :=
  String.ofList ('"' :: text.toList.flatMap escape ++ ['"'])

end LogicCapture.Text
