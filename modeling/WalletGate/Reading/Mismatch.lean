import WalletGate.Fault
import WalletGate.Text.Quoted

/-!
# When a value is not what was wanted

Reading a value out of a text fails in one of two ways.  The text may not be well formed at
all; what exactly is wrong with it is not said.  Or the text is well formed and holds
another value than the one wanted: a **mismatch**, which names what was found and what was
wanted.

A mismatch may carry the **place** where it arose, a path of member names and item numbers.
A mismatch that arises after a value was read whole has no place of its own; the nearest
record around it lends it one (`Failure.within`).
-/

namespace WalletGate.Reading

/-- What was found in place of what was wanted. -/
inductive Found where
  | flag (b : Bool)
  | whole (n : Int)
  /-- A whole number beyond 64 bits. -/
  | wide (n : Int)
  /-- A double, as it is written. -/
  | double (written : String)
  | text (s : String)
  | null
  | unit
  | sequence
  | map
  deriving DecidableEq, Repr

/-- The wording for what was found. -/
def Found.message : Found → String
  | flag b => "boolean `" ++ (if b then "true" else "false") ++ "`"
  | whole n => "integer `" ++ toString n ++ "`"
  | wide n => "integer `" ++ toString n ++ "` as " ++ (if n < 0 then "i128" else "u128")
  | double written => "floating point `" ++ written ++ "`"
  | text s => "string " ++ Text.quoted s
  | null => "null"
  | unit => "unit value"
  | sequence => "sequence"
  | map => "map"

/-- How a well-formed value differs from the one wanted. -/
inductive Mismatch where
  /-- A record lacks a field that has no default. -/
  | missingField (name : String)
  /-- A record names a field twice. -/
  | duplicateField (name : String)
  /-- A name that is none of the known ones. -/
  | unknownVariant (given : String) (known : List String)
  /-- A value of the wrong kind. -/
  | wrongKind (found : Found) (wanted : String)
  /-- A value of the right kind that is out of range. -/
  | wrongValue (found : Found) (wanted : String)
  /-- An array that ends before a field without default. -/
  | tooShort (size : Nat) (record : String) (fields : Nat)
  /-- An array with more items than the record has fields. -/
  | tooLong (size : Nat)
  /-- A value that is neither text nor a number, in place of a chain id. -/
  | noChainId
  /-- A text that is no chain id. -/
  | badChainId (cause : Fault)
  /-- A text that is no approval id. -/
  | badApprovalId
  /-- A text that is no time. -/
  | badInstant
  deriving DecidableEq, Repr

/-- The known names of an enumeration, as a message lists them. -/
def listNames : List String → String
  | [] => ""
  | [a] => "`" ++ a ++ "`"
  | a :: b :: rest => "`" ++ a ++ "`, " ++ listNames (b :: rest)

/-- The wording of a mismatch; what is wrong with an id or a time is not said. -/
def Mismatch.message : Mismatch → String
  | missingField name => "missing field `" ++ name ++ "`"
  | duplicateField name => "duplicate field `" ++ name ++ "`"
  | unknownVariant given known =>
    let choice := if known.length ≤ 1 then "expected " else "expected one of "
    "unknown variant `" ++ given ++ "`, " ++ choice ++ listNames known
  | wrongKind found wanted => "invalid type: " ++ found.message ++ ", expected " ++ wanted
  | wrongValue found wanted => "invalid value: " ++ found.message ++ ", expected " ++ wanted
  | tooShort size record fields =>
    "invalid length " ++ toString size ++ ", expected struct " ++ record ++ " with "
      ++ toString fields
      ++ (if fields = 1 then " element" else " elements")
  | tooLong size => "invalid length " ++ toString size ++ ", expected fewer elements in array"
  | noChainId => "data did not match any variant of untagged enum Raw"
  | badChainId cause => cause.message
  | badApprovalId => "<uuid>"
  | badInstant => "<time>"

/-- A step from a value to one inside it. -/
inductive Step where
  | member (name : String)
  /-- A member whose name is no text. -/
  | unnamed
  | item (index : Nat)
  deriving DecidableEq, Repr

/-- Where a value stands, outermost step first. -/
abbrev Place := List Step

/-- A place as it is written in front of a message; a member name is set off by a point. -/
def Place.text : Place → String
  | [] => ""
  | .member name :: rest => name ++ go rest
  | .unnamed :: rest => "?" ++ go rest
  | .item index :: rest => "[" ++ toString index ++ "]" ++ go rest
where
  /-- The steps behind the first. -/
  go : Place → String
    | [] => ""
    | .member name :: rest => "." ++ name ++ go rest
    | .unnamed :: rest => ".?" ++ go rest
    | .item index :: rest => "[" ++ toString index ++ "]" ++ go rest

/-- Why nothing could be read. -/
inductive Failure where
  /-- The text is not well formed. -/
  | malformed
  /-- The text is well formed and holds the wrong value. -/
  | mismatch (place : Option Place) (what : Mismatch)
  deriving DecidableEq, Repr

/-- What a reader gives. -/
abbrev Result (α : Type) := Except Failure α

/-- Fails with a mismatch that has no place yet. -/
def refuse {α : Type} (what : Mismatch) : Result α :=
  .error (.mismatch none what)

/-- Fails with a mismatch at a known place. -/
def refuseAt {α : Type} (place : Place) (what : Mismatch) : Result α :=
  .error (.mismatch (some place) what)

/-- A mismatch without a place gets this one. -/
def Failure.within (place : Place) : Failure → Failure
  | mismatch none what => mismatch (some place) what
  | failure => failure

/-- The wording of a failure: the place, if there is one, and the mismatch. -/
def Failure.message : Failure → String
  | malformed => "<syntax>"
  | mismatch none what => what.message
  | mismatch (some place) what => (if place = [] then "" else place.text ++ ": ") ++ what.message

end WalletGate.Reading
