import Converge.Text.Digits
import Converge.Text.Printable

/-!
# Quoted text

Text shown inside a message: between double quotes, with a backslash before `"` and `\`, the usual
letters for tab, line feed, carriage return and NUL, and `\u{…}` with the code point in hexadecimal
for every other character that does not print.
-/

namespace Converge.Text

/-- How one character is shown between quotes. -/
def quotedChar (c : Char) : List Char :=
  if c = '"' then ['\\', '"']
  else if c = '\\' then ['\\', '\\']
  else if c = '\t' then ['\\', 't']
  else if c = '\n' then ['\\', 'n']
  else if c = '\r' then ['\\', 'r']
  else if c = Char.ofNat 0 then ['\\', '0']
  else if isPrintable c then [c]
  else ['\\', 'u', '\x7b'] ++ hexDigits c.toNat ++ ['\x7d']

def quoted (s : String) : String :=
  String.ofList ('"' :: s.toList.flatMap quotedChar ++ ['"'])

end Converge.Text
