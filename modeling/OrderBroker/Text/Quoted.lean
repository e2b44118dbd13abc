import OrderBroker.Text.Printable

/-!
# Quoted texts in messages

A message that repeats a text it was given puts it between quotes: quotes, backslashes and the
usual controls get a backslash, and every other character that is not printable is shown by its
code point in hexadecimal.
-/

namespace OrderBroker.Text

/-- The characters that show one character between quotes. -/
def quotedChar (c : Char) : List Char :=
  if c = '"' then ['\\', '"']
  else if c = '\\' then ['\\', '\\']
  else if c.toNat = 0 then ['\\', '0']
  else if c = '\t' then ['\\', 't']
  else if c = '\r' then ['\\', 'r']
  else if c = '\n' then ['\\', 'n']
  else if isPrintable c then [c]
  else ['\\', 'u', '\x7b'] ++ Nat.toDigits 16 c.toNat ++ ['\x7d']

/-- The text between quotes. -/
def quoted (s : String) : String :=
  String.ofList ('"' :: (s.toList.flatMap quotedChar ++ ['"']))

end OrderBroker.Text
