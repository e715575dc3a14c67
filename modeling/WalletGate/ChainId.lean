import WalletGate.Fault
import WalletGate.Text.Blank

/-!
# Chain ids

A **chain id** is an unsigned 64-bit number.  People write it in decimal, or in hexadecimal
behind `0x`; the library writes it one way only, as `0x` and lower-case digits without
leading zeros.

Reading walks the digits from left to right and stops at the first cause of failure: a digit
that does not belong (`badDigit`), or a value that no longer fits (`tooLarge`), whichever
comes first.  A plus sign is allowed between the radix mark and the digits.

* `ChainId.digits_shift` — a longer number only adds digits behind those of its sixteenth part.
-/

namespace WalletGate

/-- The number that identifies a chain. -/
structure ChainId where
  value : UInt64
  deriving DecidableEq, Repr, Inhabited

namespace ChainId

/-- Chain ids are ordered as numbers. -/
instance : LE ChainId := ⟨fun a b => a.value ≤ b.value⟩

instance (a b : ChainId) : Decidable (a ≤ b) := inferInstanceAs (Decidable (a.value ≤ b.value))

/-- Why a text is no chain id. -/
inductive Misread where
  /-- No digit at all. -/
  | empty
  /-- A character that is no digit of the radix. -/
  | badDigit
  /-- A value of 2^64 or more. -/
  | tooLarge
  deriving DecidableEq, Repr

/-- The wording of a misread text's cause. -/
def Misread.message : Misread → String
  | empty => "cannot parse integer from empty string"
  | badDigit => "invalid digit found in string"
  | tooLarge => "number too large to fit in target type"

/-- How many numbers fit in a chain id. -/
def bound : Nat := Nat.pow 2 64

/-- The value of a digit of either case, for a radix up to sixteen. -/
def digitValue? (radix : Nat) (c : Char) : Option Nat :=
  let v? :=
    if '0' ≤ c ∧ c ≤ '9' then some (c.toNat - 48)
    else if 'a' ≤ c ∧ c ≤ 'f' then some (c.toNat - 87)
    else if 'A' ≤ c ∧ c ≤ 'F' then some (c.toNat - 55)
    else none
  v?.filter (· < radix)

/-- Reads digits on top of the value read so far, which is below the bound. -/
def readDigits (radix : Nat) : Nat → List Char → Except Misread Nat
  | acc, [] => .ok acc
  | acc, c :: rest =>
    match digitValue? radix c with
    | none => .error .badDigit
    | some d =>
      let next := acc * radix + d
      if bound ≤ next then .error .tooLarge else readDigits radix next rest

/-- Reads a number: an optional plus sign and at least one digit. -/
def readNumber (radix : Nat) : List Char → Except Misread Nat
  | [] => .error .empty
  | ['+'] => .error .badDigit
  | '+' :: digits => readDigits radix 0 digits
  | digits => readDigits radix 0 digits

/-- Splits a trimmed text into its radix and what should be digits. -/
def splitRadix : List Char → Nat × List Char
  | '0' :: 'x' :: rest => (16, rest)
  | '0' :: 'X' :: rest => (16, rest)
  | rest => (10, rest)

/-- Reads the characters of a chain id, blanks around it allowed. -/
def ofChars (s : List Char) : Except Misread ChainId :=
  let (radix, digits) := splitRadix (Text.trim s)
  (readNumber radix digits).map fun n => ⟨UInt64.ofNat n⟩

/-- Reads a chain id; the fault quotes the text as it was given. -/
def parse (text : String) : Except Fault ChainId :=
  (ofChars text.toList).mapError fun cause =>
    .serialization ("invalid chain id '" ++ text ++ "': " ++ cause.message)

/-- The hexadecimal digit of a value below sixteen. -/
def hexDigit (n : Nat) : Char :=
  if n < 10 then Char.ofNat (48 + n) else Char.ofNat (87 + n)

/-- The hexadecimal digits of a number, most significant first; zero has one digit. -/
def hexDigits (n : Nat) : List Char :=
  if _h : n < 16 then [hexDigit n]
  else hexDigits (n / 16) ++ [hexDigit (n % 16)]
termination_by n
decreasing_by omega

/-- The one text a chain id is written as, as characters. -/
def toChars (id : ChainId) : List Char :=
  '0' :: 'x' :: hexDigits id.value.toNat

/-- The one text a chain id is written as. -/
def display (id : ChainId) : String :=
  String.ofList id.toChars

/-- A longer number only adds digits behind those of its sixteenth part. -/
theorem digits_shift {n : Nat} (h : 16 ≤ n) :
    hexDigits n = hexDigits (n / 16) ++ [hexDigit (n % 16)] := by
  rw [hexDigits, dif_neg (by omega)]

/-- Chain ids in the order of their numbers. -/
def sort (ids : List ChainId) : List ChainId :=
  ids.mergeSort fun a b => a ≤ b

/-- Sorted chain ids without repetitions. -/
def distinct : List ChainId → List ChainId
  | [] => []
  | [a] => [a]
  | a :: b :: rest => if a = b then distinct (b :: rest) else a :: distinct (b :: rest)

/-- All ids of a list are the same. -/
def allEqual : List ChainId → Bool
  | [] => true
  | a :: rest => rest.all (· = a)

end ChainId

end WalletGate
