import WalletGate.Decimal.Layout
import WalletGate.Json.Value

/-!
# JSON text, written

A JSON value is written compactly: no blanks, members in their order.  Inside a string a
quotation mark, a backslash and the characters below U+0020 are escaped, by a letter where
JSON has one and by four lower-case hexadecimal digits elsewhere; every other character
stands for itself.

* `Json.escape_of_plain` — a character that needs no escape is written as it is.
-/

namespace WalletGate.Json

open Decimal

/-- A hexadecimal digit, lower case. -/
def hexChar (n : Nat) : Char :=
  if n < 10 then Char.ofNat (48 + n) else Char.ofNat (87 + n)

/-- The written form of one character of a string. -/
def escape (c : Char) : List Char :=
  if c = '"' then ['\\', '"']
  else if c = '\\' then ['\\', '\\']
  else if c.toNat = 8 then ['\\', 'b']
  else if c.toNat = 9 then ['\\', 't']
  else if c.toNat = 10 then ['\\', 'n']
  else if c.toNat = 12 then ['\\', 'f']
  else if c.toNat = 13 then ['\\', 'r']
  else if c.toNat < 32 then ['\\', 'u', '0', '0', hexChar (c.toNat / 16), hexChar (c.toNat % 16)]
  else [c]

/-- A string with its quotation marks. -/
def quote (s : List Char) : List Char :=
  '"' :: (s.flatMap escape ++ ['"'])

/-- A number: a whole one in decimal, a double as the layout of JSON has it. -/
def numberChars : Number → List Char
  | .whole n => if n < 0 then '-' :: Nat.toDigits 10 n.natAbs else Nat.toDigits 10 n.natAbs
  | .double x => Layout.json.text x

mutual

/-- The characters a value is written as. -/
def chars : Json → List Char
  | null => ['n', 'u', 'l', 'l']
  | bool true => ['t', 'r', 'u', 'e']
  | bool false => ['f', 'a', 'l', 's', 'e']
  | number n => numberChars n
  | text s => quote s.toList
  | list items => '[' :: (itemChars items ++ [']'])
  | record members => '\x7b' :: (memberChars members ++ ['\x7d'])

/-- The items of an array, with commas between them. -/
def itemChars : List Json → List Char
  | [] => []
  | [v] => v.chars
  | v :: w :: rest => v.chars ++ ',' :: itemChars (w :: rest)

/-- The members of an object, with commas between them. -/
def memberChars : List (String × Json) → List Char
  | [] => []
  | [(k, v)] => quote k.toList ++ ':' :: v.chars
  | (k, v) :: m :: rest => quote k.toList ++ ':' :: (v.chars ++ ',' :: memberChars (m :: rest))

end

/-- The text a value is written as. -/
def render (v : Json) : String :=
  String.ofList v.chars

/-- A character from the blank on that is neither quotation mark nor backslash is its own
written form. -/
theorem escape_of_plain {c : Char} (h : 32 ≤ c.toNat) (hq : c ≠ '"') (hb : c ≠ '\\') :
    escape c = [c] := by
  unfold escape
  simp only [hq, hb, if_false]
  repeat rw [if_neg (by omega)]

end WalletGate.Json
