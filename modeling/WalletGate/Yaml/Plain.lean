import WalletGate.ChainId
import WalletGate.Decimal.Layout
import WalletGate.Json.SourceText
import WalletGate.Reading.Mismatch

/-!
# What a plain scalar stands for

A scalar without quotation marks may stand for nothing, a truth value, a whole number, or a
double; if it has the form of none of these it is a text.  The forms are tried in this
order.

A whole number is decimal without leading zeros, or has a radix mark: `0x`, `0o`, `0b`.  It
may have a sign.  A double needs a digit, a point or an exponent may come with it, and its
size has to be in range; beyond that only the spelled-out infinities and the spelled-out
absence of a number are doubles.

* `unsigned?`, `negative?` — whole numbers without and with a minus sign, below a bound;
* `meaning` — what a plain scalar stands for.
-/

namespace WalletGate.Yaml

open Decimal Reading

/-- The scalar stands for nothing. -/
def isNull (s : String) : Bool :=
  ["", "null", "Null", "NULL", "~"].contains s

/-- The truth value a scalar stands for. -/
def flag? (s : String) : Option Bool :=
  if ["true", "True", "TRUE"].contains s then some true
  else if ["false", "False", "FALSE"].contains s then some false
  else none

/-- The value of digits of one radix, all of them, on top of what was read before. -/
def digitsValue? (radix acc : Nat) : List Char → Option Nat
  | [] => some acc
  | c :: rest => do
    let d ← ChainId.digitValue? radix c
    digitsValue? radix (acc * radix + d) rest

/-- The value of one or more digits. -/
def number? (radix : Nat) (s : List Char) : Option Nat :=
  if s.isEmpty then none else digitsValue? radix 0 s

/-- The digits start with a zero that is not their only one. -/
def hasLeadingZero : List Char → Bool
  | '0' :: c :: rest => (c :: rest).all Json.isDigit
  | _ => false

/-- The value of digits behind a radix mark, or of decimal digits without leading zeros. -/
def magnitude? : List Char → Option Nat
  | '0' :: 'x' :: s => number? 16 s
  | '0' :: 'o' :: s => number? 8 s
  | '0' :: 'b' :: s => number? 2 s
  | s => if hasLeadingZero s then none else number? 10 s

/-- The scalar without a plus sign. -/
def dropPlus : List Char → List Char
  | '+' :: s => s
  | s => s

/-- A whole number below a bound, a plus sign allowed. -/
def unsigned? (bound : Nat) (s : List Char) : Option Nat :=
  (magnitude? (dropPlus s)).filter (· < bound)

/-- A whole number behind a minus sign, not below the negated bound. -/
def negative? (bound : Nat) : List Char → Option Int
  | '-' :: s => ((magnitude? s).filter (· ≤ bound)).map fun n : Nat => -(n : Int)
  | _ => none

/-- The exponent of ten behind the digits; zero if there is none. -/
def exponent? : List Char → Option Int
  | [] => some 0
  | c :: s =>
    if c = 'e' ∨ c = 'E' then
      let (minus, digits) := Json.scanExponentSign s
      (number? 10 digits).map fun n : Nat => if minus then -(n : Int) else (n : Int)
    else none

/-- The digits behind a point, if there is one, and the rest. -/
def scanPoint : List Char → List Char × List Char
  | '.' :: s => Json.scanDigits s
  | s => ([], s)

/-- The nearest double to `digits · 10^exponent`, unless it is beyond the range.  Far
outside the range no power of ten has to be formed. -/
def nearestDouble? (digits : Nat) (exponent : Int) : Option Binary64 :=
  let lead := exponent + (Nat.toDigits 10 digits).length
  if digits = 0 ∨ lead < -400 then some Binary64.zero
  else if 400 < lead then none
  else Binary64.nearest? (digits * Nat.pow 10 exponent.toNat) (Nat.pow 10 (-exponent).toNat)

/-- A double without its sign. -/
def positive? (s : List Char) : Option Binary64 := do
  let (whole, s) := Json.scanDigits s
  let (fraction, s) := scanPoint s
  let e ← exponent? s
  let digits ← number? 10 (whole ++ fraction)
  nearestDouble? digits (e - fraction.length)

/-- A double, a sign allowed. -/
def double? : List Char → Option Binary64
  | '-' :: s => (positive? s).map (Binary64.withSign true)
  | s => positive? (dropPlus s)

/-- The spelled-out doubles and how a message writes them. -/
def spelledDoubles : List (String × String) :=
  [(".inf", "inf"), (".Inf", "inf"), (".INF", "inf"), ("+.inf", "inf"), ("+.Inf", "inf"),
    ("+.INF", "inf"), ("-.inf", "-inf"), ("-.Inf", "-inf"), ("-.INF", "-inf"), (".nan", "NaN"),
    (".NaN", "NaN"), (".NAN", "NaN")]

/-- A whole number of at most 64 bits, or else of at most 128. -/
def whole? (s : List Char) : Option Found :=
  match unsigned? (Nat.pow 2 64) s, negative? (Nat.pow 2 63) s with
  | some n, _ => some (.whole n)
  | none, some n => some (.whole n)
  | none, none =>
    match unsigned? (Nat.pow 2 128) s, negative? (Nat.pow 2 127) s with
    | some n, _ => some (.wide n)
    | none, some n => some (.wide n)
    | none, none => none

/-- The scalar has only digits behind its sign, the first of several a zero. -/
def isPadded : List Char → Bool
  | '+' :: s => hasLeadingZero s
  | '-' :: s => hasLeadingZero s
  | s => hasLeadingZero s

/-- A double as a message writes it. -/
def writtenDouble? (s : String) : Option String :=
  match spelledDoubles.lookup s with
  | some written => some written
  | none =>
    if isPadded s.toList then none
    else (double? s.toList).map fun x => String.ofList (Layout.plain.text x)

/-- What a plain scalar stands for. -/
def meaning (s : String) : Found :=
  if isNull s then .unit
  else match flag? s, whole? s.toList, writtenDouble? s with
    | some b, _, _ => .flag b
    | none, some n, _ => n
    | none, none, some written => .double written
    | none, none, none => .text s

end WalletGate.Yaml
