/-!
# Places in a YAML text

A **cursor** is what is left of a text together with the line and column it starts at.
Columns count characters from the start of the line; the column is what makes the structure
of a block.

Five line breaks are known.  In a scalar all of them stand for one line feed, but for the
two Unicode separators, which stand for themselves.
-/

namespace WalletGate.Yaml

/-- A space or a tab. -/
def isBlank (c : Char) : Bool := c = ' ' || c = '\t'

/-- A character that ends a line. -/
def isBreak (c : Char) : Bool :=
  c = '\n' || c = '\r' || c.toNat = 0x85 || c.toNat = 0x2028 || c.toNat = 0x2029

/-- There is no character, or one that separates words. -/
def endsWord : List Char → Bool
  | [] => true
  | c :: _ => isBlank c || isBreak c

/-- A character that may stand in a text at all. -/
def isAllowed (c : Char) : Bool :=
  let n := c.toNat
  n = 0x09 || n = 0x0a || n = 0x0d || (0x20 ≤ n && n ≤ 0x7e) || n = 0x85
    || (0xa0 ≤ n && n ≤ 0xfffd && n != 0xfeff) || 0x10000 ≤ n

/-- What is left of a text, and where it starts. -/
structure Cursor where
  rest : List Char
  line : Nat
  column : Nat
  /-- How many characters lie in front of it. -/
  index : Nat
  deriving DecidableEq, Repr

namespace Cursor

/-- The start of a text. -/
def start (s : List Char) : Cursor := ⟨s, 0, 0, 0⟩

/-- Behind the next `n` characters of the same line. -/
def forward (n : Nat) (c : Cursor) : Cursor :=
  ⟨c.rest.drop n, c.line, c.column + n, c.index + n⟩

/-- How many characters the line break at the front has. -/
def breakWidth : List Char → Nat
  | '\r' :: '\n' :: _ => 2
  | _ => 1

/-- What the line break at the front stands for in a scalar. -/
def breakText : List Char → List Char
  | [] => []
  | c :: _ => if c.toNat = 0x2028 ∨ c.toNat = 0x2029 then [c] else ['\n']

/-- Behind the line break at the front. -/
def nextLine (c : Cursor) : Cursor :=
  let n := breakWidth c.rest
  ⟨c.rest.drop n, c.line + 1, 0, c.index + n⟩

/-- At the start of a line, three of the given characters and the end of a word. -/
def isMarker (mark : Char) (c : Cursor) : Bool :=
  c.column = 0 &&
    match c.rest with
    | x :: y :: z :: rest => x = mark && y = mark && z = mark && endsWord rest
    | _ => false

/-- The start or the end of a document is marked here. -/
def isDocumentMark (c : Cursor) : Bool :=
  c.isMarker '-' || c.isMarker '.'

end Cursor

end WalletGate.Yaml
