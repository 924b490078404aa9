import KeyValueService.Text.Hidden

/-!
# Quoted text

How a message shows a piece of text that came from outside: in double quotes, with the quote, the
backslash and the usual controls escaped, and with the number of every character that would not
show as itself.
-/

namespace KeyValueService.Text

/-- A number in hexadecimal, small letters, without leading zeros. -/
def hexNumber (n : Nat) : List Char :=
  Nat.toDigits 16 n

/-- What stands for one character inside the quotes. -/
def quotedChar (c : Char) : List Char :=
  if c = '\"' then ['\\', '\"']
  else if c = '\\' then ['\\', '\\']
  else if c = '\n' then ['\\', 'n']
  else if c = '\r' then ['\\', 'r']
  else if c = '\t' then ['\\', 't']
  else if c = '\x00' then ['\\', '0']
  else if isHidden c then ['\\', 'u', '\x7b'] ++ hexNumber c.toNat ++ ['\x7d']
  else [c]

/-- The text between double quotes, escaped so that it stays on one line. -/
def quoted (s : String) : String :=
  String.ofList ('\"' :: s.toList.flatMap quotedChar ++ ['\"'])

end KeyValueService.Text
