import WalletGate.ChainId
import WalletGate.Json.Printer
import WalletGate.Json.SourceText
import WalletGate.Reading.Shape

/-!
# Reading values out of JSON

A reader walks a `Source` in the order of its text.  It stops at the first thing that is
wrong: a mismatch if the text is well formed up to there, and `malformed` if the text breaks
off before any mismatch.

At most 127 arrays and objects may stand around a value (`nesting`); what nobody reads — the
value of an unknown member — may be nested as deeply as it likes, and only has to be well
formed.

A record may be written as an object or as an array of its fields in order.  An enumeration
is a name, or an object with that name as its only member and null as its value.

* `Json.format` — how the basic kinds of values are read from JSON;
* `Json.readText`, `Json.readValue` — reading from a text and from a value at hand.
-/

namespace WalletGate.Json

open Reading

/-- How many arrays and objects may stand inside one another. -/
def nesting : Nat := 127

/-- A place in a text: how many arrays and objects may still be entered there, and what
stands there. -/
abbrev Spot := Nat × Source

/-- What a message says was found. -/
def found : Source → Result Found
  | .null => .ok .null
  | .bool b => .ok (.flag b)
  | .number (some (.whole n)) => .ok (.whole n)
  | .number (some (.double x)) => .ok (.double (String.ofList (Decimal.Layout.json.text x)))
  | .number none => .error .malformed
  | .text (some s) => .ok (.text s)
  | .text none => .error .malformed
  | .list _ => .ok .sequence
  | .record _ => .ok .map
  | .broken => .error .malformed

/-- Another kind of value was wanted. -/
def unwanted {α : Type} (s : Source) (wanted : String) : Result α :=
  found s >>= fun f => refuse (.wrongKind f wanted)

/-- Enters an array or object, if one may be entered here. -/
def entering {α : Type} (room : Nat) (read : Nat → Result α) : Result α :=
  match room with
  | 0 => .error .malformed
  | room + 1 => read room

/-- A truth value. -/
def readFlag : Spot → Result Bool
  | (_, .bool b) => .ok b
  | (_, s) => unwanted s "a boolean"

/-- A text, described by `wanted` where something else is found. -/
def readTextAs (wanted : String) : Spot → Result String
  | (_, .text (some s)) => .ok s
  | (_, s) => unwanted s wanted

/-- A text. -/
def readString : Spot → Result String :=
  readTextAs "a string"

/-- A whole number between two bounds, the upper one excluded. -/
def readWhole (low high : Int) (wanted : String) : Spot → Result Int
  | (_, .number (some (.whole n))) =>
    if low ≤ n ∧ n < high then .ok n else refuse (.wrongValue (.whole n) wanted)
  | (_, s) => unwanted s wanted

/-- An unsigned 64-bit number. -/
def readWord (spot : Spot) : Result UInt64 :=
  (readWhole 0 (Nat.pow 2 64) "u64" spot).map fun n => UInt64.ofNat n.toNat

/-- A signed 64-bit number. -/
def readSigned : Spot → Result Int :=
  readWhole (-(Nat.pow 2 63)) (Nat.pow 2 63) "i64"

/-- A value, or none for null. -/
def readOptional {β : Type} (read : Spot → Result β) : Spot → Result (Option β)
  | (_, .null) => .ok none
  | spot => (read spot).map some

/-- The items of an array, each read in turn. -/
def readItems {β : Type} (read : Spot → Result β) (room : Nat) : Items → Result (List β)
  | .closed => .ok []
  | .broken => .error .malformed
  | .cons head rest => do
    let b ← read (room, head)
    let bs ← readItems read room rest
    pure (b :: bs)

/-- An array. -/
def readList {β : Type} (read : Spot → Result β) : Spot → Result (List β)
  | (room, .list items) => entering room fun room => readItems read room items
  | (_, s) => unwanted s "a sequence"

mutual

/-- A free value. -/
def readFree (room : Nat) : Source → Result Json
  | .null => .ok .null
  | .bool b => .ok (.bool b)
  | .number (some n) => .ok (.number n)
  | .number none => .error .malformed
  | .text (some s) => .ok (.text s)
  | .text none => .error .malformed
  | .list items => entering room fun room => (readFreeItems room items).map .list
  | .record members => entering room fun room => (readFreeMembers room members).map fun ms =>
      .record (sortMembers ms)
  | .broken => .error .malformed

/-- The items of a free array. -/
def readFreeItems (room : Nat) : Items → Result (List Json)
  | .closed => .ok []
  | .broken => .error .malformed
  | .cons head rest => do
    let v ← readFree room head
    let vs ← readFreeItems room rest
    pure (v :: vs)

/-- The members of a free object, in the order of the text. -/
def readFreeMembers (room : Nat) : Members → Result (List (String × Json))
  | .closed => .ok []
  | .broken _ => .error .malformed
  | .cons none _ _ => .error .malformed
  | .cons (some key) value rest => do
    let v ← readFree room value
    let vs ← readFreeMembers room rest
    pure ((key, v) :: vs)

end

/-- A free value at a spot. -/
def readAny (spot : Spot) : Result Json :=
  readFree spot.1 spot.2

/-- A chain id, written as a text or as a number. -/
def readChainId (spot : Spot) : Result ChainId := do
  match ← readAny spot with
  | .text s =>
    match ChainId.parse s with
    | .ok id => .ok id
    | .error cause => refuse (.badChainId cause)
  | .number (.whole n) => if 0 ≤ n then .ok ⟨UInt64.ofNat n.toNat⟩ else refuse .noChainId
  | _ => refuse .noChainId

variable {δ : Type}

/-- The members of a record's object. -/
def readMembers (shape : Shape Spot δ) (room : Nat) : Members → δ → Result δ
  | .closed, d => shape.complete d
  | .broken _, _ => .error .malformed
  | .cons none _ _, _ => .error .malformed
  | .cons (some key) value rest, d =>
    match shape.field? key with
    | none => if value.isSound then readMembers shape room rest d else .error .malformed
    | some f => do
      let d ← Shape.meet f (room, value) d
      readMembers shape room rest d

/-- The fields of a record, as the items of an array.  `index` is the number of the next
field. -/
def readPositional (shape : Shape Spot δ) (room : Nat) :
    Nat → List (Field Spot δ) → Items → δ → Result δ
  | _, _, .broken, _ => .error .malformed
  | _, [], .closed, d => .ok d
  | index, [], .cons head rest, _ =>
    if (Items.cons head rest).areSound then refuse (.tooLong (index + (Items.cons head rest).count))
    else .error .malformed
  | index, f :: fs, .cons head rest, d => do
    let d ← f.fill (room, head) d
    readPositional shape room (index + 1) fs rest d
  | index, f :: fs, .closed, d =>
    match f.absent with
    | some default => readPositional shape room (index + 1) fs .closed (default d)
    | none => refuse (.tooShort index shape.name shape.fields.length)

/-- A record: an object, or an array of its fields. -/
def readRecord (shape : Shape Spot δ) : Spot → Result δ
  | (room, .record members) => entering room fun room => readMembers shape room members shape.blank
  | (room, .list items) =>
    entering room fun room => readPositional shape room 0 shape.fields items shape.blank
  | (_, s) => unwanted s ("struct " ++ shape.name)

/-- The value with this name. -/
def readName {α : Type} (names : List (String × α)) (given : String) : Result α :=
  match names.lookup given with
  | some a => .ok a
  | none => refuse (.unknownVariant given (names.map Prod.fst))

/-- The content of an object that stands for a name. -/
def readNameMember {α : Type} (names : List (String × α)) : Members → Result α
  | .closed => .error .malformed
  | .broken found => unwanted found "variant identifier"
  | .cons none _ _ => .error .malformed
  | .cons (some key) value rest => do
    let a ← readName names key
    match value, rest with
    | .null, .closed => .ok a
    | .null, _ => .error .malformed
    | value, _ => unwanted value "unit"

/-- An enumeration: a name, or an object with that name as its only member. -/
def readVariant {α : Type} (names : List (String × α)) : Spot → Result α
  | (_, .text (some s)) => readName names s
  | (room, .record members) => entering room fun _ => readNameMember names members
  | _ => .error .malformed

/-- How the basic kinds of values are read from JSON. -/
def format : Format Spot where
  flag := readFlag
  text := readString
  word := readWord
  chainId := readChainId
  optional := readOptional
  listOf := readList
  record := readRecord

/-- Reads a value that is at hand already. -/
def readValue {α : Type} (read : Spot → Result α) (v : Json) : Result α :=
  read (nesting, Source.ofJson v)

/-- What is left of a text after its value holds blanks only. -/
def endsClean : Option (List Char) → Bool
  | some rest => (skipSpace rest).isEmpty
  | none => false

/-- Reads a text that holds one value.  In a text, an array longer than the record it stands
for ends at the wrong place, so it is malformed like anything behind the value. -/
def readText {α : Type} (read : Spot → Result α) (text : String) : Result α :=
  let (source, rest) := Source.ofChars text.toList
  match read (nesting, source) with
  | .ok a => if endsClean rest then .ok a else .error .malformed
  | .error (.mismatch _ (.tooLong _)) => .error .malformed
  | .error failure => .error failure

/-- Reads a text that holds one free value. -/
def parse? (text : String) : Option Json :=
  (readText readAny text).toOption

end WalletGate.Json
