import WalletGate.Decimal.Binary64

/-!
# JSON values

A **JSON value** as the library holds it.  Numbers are of two kinds that never mix: whole
numbers, kept exactly, and doubles, kept as bits.  The members of an object stand in the
order in which they will be written.

A **free value** — a request's id or params, a response's result, an error's data — is
sorted: `Json.sorted` puts the members of every object in the order of their names and keeps
the last of several with one name.  Names are compared character by character.
-/

namespace WalletGate

open Decimal

/-- A JSON number. -/
inductive Number where
  | whole (n : Int)
  | double (x : Binary64)
  deriving Repr, Inhabited, DecidableEq

/-- A JSON value. -/
inductive Json where
  | null
  | bool (b : Bool)
  | number (n : Number)
  | text (s : String)
  | list (items : List Json)
  | record (members : List (String × Json))
  deriving Repr, Inhabited, BEq

namespace Json

/-- Puts one member into sorted members, in place of one of the same name. -/
def insertMember {α : Type} (key : String) (value : α) : List (String × α) → List (String × α)
  | [] => [(key, value)]
  | (k, v) :: rest =>
    if key < k then (key, value) :: (k, v) :: rest
    else if key = k then (key, value) :: rest
    else (k, v) :: insertMember key value rest

/-- The members in the order of their names; of several with one name the last. -/
def sortMembers {α : Type} (members : List (String × α)) : List (String × α) :=
  members.foldl (fun acc m => insertMember m.1 m.2 acc) []

/-- The value of the first member with this name. -/
def member? (key : String) : Json → Option Json
  | record members => members.lookup key
  | _ => none

/-- A whole number. -/
def whole (n : Int) : Json := number (.whole n)

/-- A text, or JSON null for none. -/
def ofText? : Option String → Json
  | some s => text s
  | none => null

end Json

end WalletGate
