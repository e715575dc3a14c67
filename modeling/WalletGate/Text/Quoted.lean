import WalletGate.Text.Hidden

/-!
# Texts quoted in a message

A message that quotes a text puts it between quotation marks and escapes what would mislead
its reader: the quotation mark itself, the backslash, line breaks and tabs by a letter, and
every hidden character by its code point in braces.
-/

namespace WalletGate.Text

/-- A character inside a quoted text. -/
def quotedChar (c : Char) : List Char :=
  if c = '"' then ['\\', '"']
  else if c = '\\' then ['\\', '\\']
  else if c = '\n' then ['\\', 'n']
  else if c = '\r' then ['\\', 'r']
  else if c = '\t' then ['\\', 't']
  else if c.toNat = 0 then ['\\', '0']
  else if isHidden c then '\\' :: 'u' :: '\x7b' :: (Nat.toDigits 16 c.toNat ++ ['\x7d'])
  else [c]

/-- A text between quotation marks, fit for a message. -/
def quoted (s : String) : String :=
  String.ofList ('"' :: (s.toList.flatMap quotedChar ++ ['"']))

end WalletGate.Text
