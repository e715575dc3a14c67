import WalletGate.Json.Numeral
import WalletGate.Json.Source

/-!
# Taking a JSON text apart

Characters become a `Source`.  Blanks between the parts are the four JSON knows.  Every
scanner takes the characters still unread and gives back those it leaves; a value that is
broken, or ends in a broken place, leaves nothing, since nothing behind that place can be
told apart.

* `scanDigits_append` — digits in front are taken whole, up to the first character that is none;
* `Source.ofChars` — the value at the front of a text and what follows it.
-/

namespace WalletGate.Json

/-- A blank between the parts of a JSON text. -/
def isSpace (c : Char) : Bool :=
  c = ' ' || c = '\n' || c = '\t' || c = '\r'

/-- The text from its first character that is no blank. -/
def skipSpace (s : List Char) : List Char :=
  s.dropWhile isSpace

/-- A decimal digit. -/
def isDigit (c : Char) : Bool :=
  '0' ≤ c && c ≤ '9'

/-- The digits at the front and the rest. -/
def scanDigits (s : List Char) : List Char × List Char :=
  (s.takeWhile isDigit, s.dropWhile isDigit)

/-- Digits are taken whole, up to the first character that is none. -/
theorem scanDigits_append {ds s : List Char} (h : ∀ c ∈ ds, isDigit c = true)
    (hs : ∀ c ∈ s.head?, isDigit c = false) : scanDigits (ds ++ s) = (ds, s) := by
  induction ds with
  | nil =>
    cases s with
    | nil => rfl
    | cons c t => simp [scanDigits, hs c (by simp)]
  | cons d t ih =>
    have hd : isDigit d = true := h d (by simp)
    have ht := ih fun c hc => h c (by simp [hc])
    simp only [scanDigits, Prod.mk.injEq] at ht ⊢
    simp [hd, ht.1, ht.2]

/-- The whole digits of a number: one zero, or digits that start with none. -/
def scanWhole (s : List Char) : Option (List Char × List Char) :=
  match scanDigits s with
  | ([], _) => none
  | ('0' :: _ :: _, _) => none
  | found => some found

/-- The fraction digits behind a point, if there is a point. -/
def scanFraction : List Char → Option (Option (List Char) × List Char)
  | '.' :: s =>
    match scanDigits s with
    | ([], _) => none
    | (ds, rest) => some (some ds, rest)
  | s => some (none, s)

/-- The sign of an exponent, true for minus, and the rest. -/
def scanExponentSign : List Char → Bool × List Char
  | '-' :: s => (true, s)
  | '+' :: s => (false, s)
  | s => (false, s)

/-- The exponent, if there is one. -/
def scanExponent : List Char → Option (Option (Bool × List Char) × List Char)
  | [] => some (none, [])
  | c :: s =>
    if c = 'e' ∨ c = 'E' then
      let (minus, s) := scanExponentSign s
      match scanDigits s with
      | ([], _) => none
      | (ds, rest) => some (some (minus, ds), rest)
    else some (none, c :: s)

/-- A number without its sign. -/
def scanUnsigned (negative : Bool) (s : List Char) : Option (Numeral × List Char) := do
  let (digits, s) ← scanWhole s
  let (fraction, s) ← scanFraction s
  let (exponent, s) ← scanExponent s
  pure (⟨negative, digits, fraction, exponent⟩, s)

/-- The value of a hexadecimal digit of either case. -/
def hexValue? (c : Char) : Option Nat :=
  if '0' ≤ c ∧ c ≤ '9' then some (c.toNat - 48)
  else if 'a' ≤ c ∧ c ≤ 'f' then some (c.toNat - 87)
  else if 'A' ≤ c ∧ c ≤ 'F' then some (c.toNat - 55)
  else none

/-- The value of four hexadecimal digits. -/
def hexUnit? (a b c d : Char) : Option Nat := do
  let a ← hexValue? a
  let b ← hexValue? b
  let c ← hexValue? c
  let d ← hexValue? d
  pure (((a * 16 + b) * 16 + c) * 16 + d)

/-- A part of a string: a character, or a 16-bit unit that was escaped by its number. -/
inductive Piece where
  | char (c : Char)
  | unit (n : Nat)
  deriving Repr, DecidableEq

/-- The character that a letter behind a backslash stands for. -/
def unescape? : Char → Option Char
  | '"' => some '"'
  | '\\' => some '\\'
  | '/' => some '/'
  | 'b' => some '\x08'
  | 'f' => some '\x0c'
  | 'n' => some '\n'
  | 'r' => some '\r'
  | 't' => some '\t'
  | _ => none

/-- The pieces of a string up to its closing quotation mark. -/
def scanString : List Char → Option (List Piece × List Char)
  | [] => none
  | '"' :: s => some ([], s)
  | '\\' :: 'u' :: a :: b :: c :: d :: s =>
    match hexUnit? a b c d with
    | none => none
    | some n => (scanString s).map fun (ps, rest) => (.unit n :: ps, rest)
  | '\\' :: c :: s =>
    match unescape? c with
    | none => none
    | some e => (scanString s).map fun (ps, rest) => (.char e :: ps, rest)
  | c :: s =>
    if c.toNat < 32 ∨ c = '\\' then none
    else (scanString s).map fun (ps, rest) => (.char c :: ps, rest)

/-- A unit that opens a pair of surrogates. -/
def isHighSurrogate (n : Nat) : Bool := 0xd800 ≤ n && n < 0xdc00

/-- A unit that closes a pair of surrogates. -/
def isLowSurrogate (n : Nat) : Bool := 0xdc00 ≤ n && n < 0xe000

/-- The characters of a string, its surrogates paired; none if one of them has no partner. -/
def joinPieces : List Piece → Option (List Char)
  | [] => some []
  | .char c :: ps => (joinPieces ps).map (c :: ·)
  | .unit h :: .unit l :: ps =>
    if isHighSurrogate h then
      if isLowSurrogate l then
        (joinPieces ps).map (Char.ofNat (0x10000 + (h - 0xd800) * 0x400 + (l - 0xdc00)) :: ·)
      else none
    else if isLowSurrogate h then none
    else (joinPieces (.unit l :: ps)).map (Char.ofNat h :: ·)
  | .unit n :: ps =>
    if isHighSurrogate n || isLowSurrogate n then none
    else (joinPieces ps).map (Char.ofNat n :: ·)

/-- The content of a string, if its surrogates are paired. -/
def contentOf (pieces : List Piece) : Option String :=
  (joinPieces pieces).map String.ofList

/-- What a scanner leaves: the tree, and the characters behind it unless it ends in a broken
place. -/
abbrev Scanned (α : Type) := α × Option (List Char)

mutual

/-- The value at the front of a text; `fuel` bounds the number of nested scans. -/
def scanValue : Nat → List Char → Scanned Source
  | 0, _ => (.broken, none)
  | fuel + 1, s =>
    match skipSpace s with
    | 'n' :: 'u' :: 'l' :: 'l' :: rest => (.null, some rest)
    | 't' :: 'r' :: 'u' :: 'e' :: rest => (.bool true, some rest)
    | 'f' :: 'a' :: 'l' :: 's' :: 'e' :: rest => (.bool false, some rest)
    | '"' :: rest =>
      match scanString rest with
      | none => (.broken, none)
      | some (pieces, rest) => (.text (contentOf pieces), some rest)
    | '[' :: rest =>
      match skipSpace rest with
      | ']' :: rest => (.list .closed, some rest)
      | rest => let (items, left) := scanItems fuel rest; (.list items, left)
    | '\x7b' :: rest =>
      match skipSpace rest with
      | '\x7d' :: rest => (.record .closed, some rest)
      | rest => let (members, left) := scanMembers fuel rest; (.record members, left)
    | '-' :: rest =>
      match scanUnsigned true rest with
      | none => (.broken, none)
      | some (n, rest) => (.number n.value?, some rest)
    | rest =>
      match scanUnsigned false rest with
      | none => (.broken, none)
      | some (n, rest) => (.number n.value?, some rest)

/-- The items of an array, of which at least one has to come. -/
def scanItems : Nat → List Char → Scanned Items
  | 0, _ => (.broken, none)
  | fuel + 1, s =>
    match scanValue fuel s with
    | (head, none) => (.cons head .broken, none)
    | (head, some rest) =>
      match skipSpace rest with
      | ']' :: rest => (.cons head .closed, some rest)
      | ',' :: rest => let (items, left) := scanItems fuel rest; (.cons head items, left)
      | _ => (.cons head .broken, none)

/-- The members of an object, of which at least one has to come. -/
def scanMembers : Nat → List Char → Scanned Members
  | 0, _ => (.broken .broken, none)
  | fuel + 1, s =>
    match skipSpace s with
    | '"' :: rest =>
      match scanString rest with
      | none => (.broken .broken, none)
      | some (pieces, rest) =>
        let key := contentOf pieces
        match skipSpace rest with
        | ':' :: rest =>
          match scanValue fuel rest with
          | (value, none) => (.cons key value (.broken .broken), none)
          | (value, some rest) =>
            match skipSpace rest with
            | '\x7d' :: rest => (.cons key value .closed, some rest)
            | ',' :: rest =>
              let (members, left) := scanMembers fuel rest; (.cons key value members, left)
            | _ => (.cons key value (.broken .broken), none)
        | _ => (.cons key .broken (.broken .broken), none)
    | rest => (.broken (scanValue fuel rest).1, none)

end

/-- The value at the front of a text, and what follows it. -/
def Source.ofChars (s : List Char) : Scanned Source :=
  scanValue (2 * s.length + 2) s

end WalletGate.Json
