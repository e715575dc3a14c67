import WalletGate.Reading.Shape
import WalletGate.Yaml.Node
import WalletGate.Yaml.Plain

/-!
# Reading values out of YAML

A reader takes a node together with its place in the text.  A mismatch of a single value is
told with that value's place; one that concerns a record as a whole — a member missing or
repeated, a chain id that is none — with the record's.

A scalar in quotation marks is a text and nothing else, but where a text is wanted a plain
scalar is taken as it is spelled.  Where a list or a record is wanted, nothing at all stands
for the empty one.

* `Yaml.format` — how the basic kinds of values are read from YAML;
* `Yaml.readText` — reading from a text.
-/

namespace WalletGate.Yaml

open Reading

/-- A node and its place. -/
abbrev Spot := Place × Node

/-- What a message says was found. -/
def found : Node → Found
  | .scalar text true => meaning text
  | .scalar text false => .text text
  | .sequence _ => .sequence
  | .mapping _ => .map

/-- Another kind of value was wanted. -/
def unwanted {α : Type} (wanted : String) (spot : Spot) : Result α :=
  refuseAt spot.1 (.wrongKind (found spot.2) wanted)

/-- Nothing stands here. -/
def isBare : Node → Bool
  | .scalar text plain => plain && text = ""
  | _ => false

/-- A truth value. -/
def readFlag (spot : Spot) : Result Bool :=
  match found spot.2 with
  | .flag b => .ok b
  | _ => unwanted "a boolean" spot

/-- A text: any scalar, as it is spelled. -/
def readString : Spot → Result String
  | (_, .scalar text _) => .ok text
  | spot => unwanted "a string" spot

/-- An unsigned 64-bit number. -/
def readWord (spot : Spot) : Result UInt64 :=
  match spot.2 with
  | .scalar text true =>
    match unsigned? (Nat.pow 2 64) text.toList with
    | some n => .ok (UInt64.ofNat n)
    | none => unwanted "u64" spot
  | _ => unwanted "u64" spot

/-- The step to the value of a member with this name. -/
def stepTo : Node → Step
  | .scalar name _ => .member name
  | _ => .unnamed

mutual

/-- The first whole number of more than 64 bits in a node, and its place. -/
def firstWide? (place : Place) : Node → Option (Place × Int)
  | .scalar text plain =>
    match found (.scalar text plain) with
    | .wide n => some (place, n)
    | _ => none
  | .sequence items => firstWideItem? place 0 items
  | .mapping members => firstWideMember? place members

/-- The first such number among items, the first of which has the given number. -/
def firstWideItem? (place : Place) (index : Nat) : List Node → Option (Place × Int)
  | [] => none
  | item :: items =>
    firstWide? (place ++ [.item index]) item <|> firstWideItem? place (index + 1) items

/-- The first such number among members. -/
def firstWideMember? (place : Place) : List (Node × Node) → Option (Place × Int)
  | [] => none
  | (key, value) :: members =>
    firstWide? place key <|> firstWide? (place ++ [stepTo key]) value
      <|> firstWideMember? place members

end

/-- A chain id, written as a text or as a number.  Numbers of more than 64 bits are no
values at all. -/
def readChainId (spot : Spot) : Result ChainId :=
  match firstWide? spot.1 spot.2 with
  | some (place, n) => refuseAt place (.wrongKind (.wide n) "any value")
  | none =>
    match found spot.2 with
    | .text s =>
      match ChainId.parse s with
      | .ok id => .ok id
      | .error cause => refuse (.badChainId cause)
    | .whole n => if 0 ≤ n then .ok ⟨UInt64.ofNat n.toNat⟩ else refuse .noChainId
    | _ => refuse .noChainId

/-- A value, or none where nothing is meant. -/
def readOptional {β : Type} (read : Spot → Result β) (spot : Spot) : Result (Option β) :=
  match found spot.2 with
  | .unit => .ok none
  | _ => (read spot).map some

/-- Items, the first of which has the given number. -/
def readItems {β : Type} (read : Spot → Result β) (place : Place) :
    Nat → List Node → Result (List β)
  | _, [] => .ok []
  | index, item :: items => do
    let b ← read (place ++ [.item index], item)
    let bs ← readItems read place (index + 1) items
    pure (b :: bs)

/-- A sequence; nothing at all is the empty one. -/
def readList {β : Type} (read : Spot → Result β) : Spot → Result (List β)
  | (place, .sequence items) => readItems read place 0 items
  | spot => if isBare spot.2 then .ok [] else unwanted "a sequence" spot

variable {δ : Type}

/-- The members of a record. -/
def readMembers (shape : Shape Spot δ) (place : Place) : List (Node × Node) → δ → Result δ
  | [], d => shape.complete d
  | (.scalar key _, value) :: members, d =>
    match shape.field? key with
    | none => readMembers shape place members d
    | some f => do
      let d ← Shape.meet f (place ++ [.member key], value) d
      readMembers shape place members d
  | (key, _) :: _, _ => unwanted "field identifier" (place, key)

/-- A record; nothing at all is the one without members. -/
def readRecord (shape : Shape Spot δ) : Spot → Result δ
  | (place, .mapping members) =>
    (readMembers shape place members shape.blank).mapError (Failure.within place)
  | spot =>
    if isBare spot.2 then (shape.complete shape.blank).mapError (Failure.within spot.1)
    else unwanted ("struct " ++ shape.name) spot

/-- How the basic kinds of values are read from YAML. -/
def format : Format Spot where
  flag := readFlag
  text := readString
  word := readWord
  chainId := readChainId
  optional := readOptional
  listOf := readList
  record := readRecord

/-- Reads a text that holds one document. -/
def readText {α : Type} (read : Spot → Result α) (text : String) : Result α :=
  match Node.parse? text with
  | none => .error .malformed
  | some node => read ([], node)

end WalletGate.Yaml
