import WalletGate.Json.Printer
import WalletGate.Json.SourceText

/-!
# Approval ids

An approval is told apart from all others by a 128-bit id.  Ids are read in four shapes —
with hyphens, as 32 plain digits, in braces, or as a URN — with digits of either case, and
written in one: lower-case, with hyphens.

Ids made here have the layout of random ids (version 4), their free bits holding a serial
number, so two serial numbers below `2 ^ 62` never share an id and later ids are larger.

* `ApprovalId.fresh_injective` — different serial numbers, different ids;
* `ApprovalId.fresh_ne_nil` — a made id is never the nil id.
-/

namespace WalletGate

/-- The id of an approval. -/
structure ApprovalId where
  value : Nat
  deriving DecidableEq, Repr, Inhabited

namespace ApprovalId

/-- The id that belongs to no approval. -/
def nil : ApprovalId := ⟨0⟩

/-- The bits that mark a random id: version 4 and the common variant. -/
def marks : Nat := 4 * Nat.pow 2 76 + 2 * Nat.pow 2 62

/-- The id with a serial number in its lowest free bits. -/
def fresh (serial : Nat) : ApprovalId := ⟨marks + serial % Nat.pow 2 62⟩

/-- The version an id says it has. -/
def version (id : ApprovalId) : Nat := id.value / Nat.pow 2 76 % 16

/-- The lengths of the groups between hyphens. -/
def groups : List Nat := [8, 4, 4, 4, 12]

/-- Reads hexadecimal digits on top of the value read so far. -/
def readHex (acc : Nat) : List Char → Option Nat
  | [] => some acc
  | c :: rest => do
    let d ← Json.hexValue? c
    readHex (acc * 16 + d) rest

/-- Reads groups of digits of the given lengths, hyphens between them. -/
def readGroups (acc : Nat) : List Nat → List Char → Option Nat
  | [], [] => some acc
  | [], _ :: _ => none
  | n :: more, s => do
    let digits := s.take n
    let rest := s.drop n
    if digits.length = n then
      let acc ← readHex acc digits
      match more, rest with
      | [], rest => readGroups acc [] rest
      | more, '-' :: rest => readGroups acc more rest
      | _, _ => none
    else none

/-- The characters inside braces. -/
def unbrace : List Char → Option (List Char)
  | '\x7b' :: rest =>
    match rest.reverse with
    | '\x7d' :: inner => some inner.reverse
    | _ => none
  | _ => none

/-- The characters behind the URN mark. -/
def afterUrn : List Char → Option (List Char)
  | 'u' :: 'r' :: 'n' :: ':' :: 'u' :: 'u' :: 'i' :: 'd' :: ':' :: rest => some rest
  | _ => none

/-- Reads an id in any of its four shapes. -/
def ofText? (text : String) : Option ApprovalId :=
  let s := text.toList
  let value? :=
    if s.length = 32 then readHex 0 s
    else
      match unbrace s, afterUrn s with
      | some inner, _ => readGroups 0 groups inner
      | none, some rest => readGroups 0 groups rest
      | none, none => readGroups 0 groups s
  value?.map mk

/-- The lowest `n` hexadecimal digits of a number. -/
def hexTail (n value : Nat) : List Char :=
  (List.range n).map fun i => Json.hexChar (value / Nat.pow 16 (n - 1 - i) % 16)

/-- Splits digits into groups with hyphens between them. -/
def hyphenate : List Nat → List Char → List Char
  | [], _ => []
  | [n], s => s.take n
  | n :: more, s => s.take n ++ '-' :: hyphenate more (s.drop n)

/-- The written form of an id. -/
def text (id : ApprovalId) : String :=
  String.ofList (hyphenate groups (hexTail 32 id.value))

/-- Different serial numbers make different ids. -/
theorem fresh_injective {m n : Nat} (hm : m < Nat.pow 2 62) (hn : n < Nat.pow 2 62)
    (h : fresh m = fresh n) : m = n := by
  simp only [fresh, mk.injEq, Nat.mod_eq_of_lt hm, Nat.mod_eq_of_lt hn] at h
  omega

/-- A made id is never the nil id. -/
theorem fresh_ne_nil (n : Nat) : fresh n ≠ nil := by
  have hmarks : 0 < marks := by decide
  simp only [fresh, nil, ne_eq, mk.injEq]
  omega

end ApprovalId

end WalletGate
