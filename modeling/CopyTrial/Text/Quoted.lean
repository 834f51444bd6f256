import CopyTrial.Text.Unprintable

/-!
# Quoted text in messages

A message shows a text between double quotes. Quotes and backslashes get a backslash, the usual
controls their letter, and every character that cannot be seen alone its code point.

## Main definitions

* `Text.quoted` — a text as a message shows it.
-/

set_option autoImplicit false

namespace CopyTrial.Text

/-- One character between the quotes. -/
def quotedChar (c : Char) : List Char :=
  if c = '\x00' then ['\\', '0']
  else if c = '\t' then ['\\', 't']
  else if c = '\r' then ['\\', 'r']
  else if c = '\n' then ['\\', 'n']
  else if c = '"' then ['\\', '"']
  else if c = '\\' then ['\\', '\\']
  else if isUnprintable c then '\\' :: 'u' :: '{' :: (Nat.toDigits 16 c.toNat ++ ['}'])
  else [c]

/-- A text as a message shows it. -/
def quoted (s : String) : String :=
  String.ofList ('"' :: (s.toList.flatMap quotedChar ++ ['"']))

end CopyTrial.Text
