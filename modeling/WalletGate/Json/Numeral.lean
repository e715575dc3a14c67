import WalletGate.Json.Value

/-!
# JSON numbers as they are read

A **numeral** is a number as it stands in a text: sign, whole digits, fraction digits,
exponent.  Its value is a whole number if it has neither fraction nor exponent and fits in
64 bits (signed below zero, unsigned above), except `-0`; otherwise it is a double.

A double is found in two steps.  The digits are gathered into a 64-bit significand, and
those that no longer fit only move the exponent; then the significand is scaled once by a
power of ten, each step rounded to the nearest double.  A result beyond the largest double
is no value.
-/

namespace WalletGate.Json

open Decimal

/-- A number as it stands in a text. -/
structure Numeral where
  negative : Bool
  whole : List Char
  fraction : Option (List Char)
  /-- The exponent's sign (true for minus) and digits. -/
  exponent : Option (Bool × List Char)
  deriving Repr, DecidableEq

namespace Numeral

/-- The value of a decimal digit. -/
def digit (c : Char) : Nat := c.toNat - 48

/-- The first number that needs more than 64 bits. -/
def wordBound : Nat := Nat.pow 2 64

/-- Gathers digits into a significand as long as it fits in 64 bits; what does not fit is
left over. -/
def gather (significand : Nat) : List Char → Nat × List Char
  | [] => (significand, [])
  | c :: rest =>
    let next := significand * 10 + digit c
    if next < wordBound then gather next rest else (significand, c :: rest)

/-- The value of exponent digits, unless it is beyond 31 bits. -/
def exponentValue? (acc : Nat) : List Char → Option Nat
  | [] => some acc
  | c :: rest =>
    let next := acc * 10 + digit c
    if next < Nat.pow 2 31 then exponentValue? next rest else none

/-- Ten to a power up to 308, as a double. -/
def powerOfTen (k : Nat) : Binary64 :=
  (Binary64.nearest? (Nat.pow 10 k) 1).getD Binary64.zero

/-- Divides by ten to the power `k`, at most 308 places at a time. -/
def scaleDown (x : Binary64) (k : Nat) : Option Binary64 :=
  if k ≤ 308 then x.div? (powerOfTen k)
  else if x.isZero then some x
  else do scaleDown (← x.div? (powerOfTen 308)) (k - 308)
termination_by k

/-- The double nearest to a significand, scaled by a power of ten; none beyond the range. -/
def scale (significand : Nat) (exponent : Int) : Option Binary64 := do
  let x ← Binary64.nearest? significand 1
  if exponent < 0 then scaleDown x exponent.natAbs
  else if exponent ≤ 308 then x.mul? (powerOfTen exponent.natAbs)
  else if x.isZero then some x
  else none

/-- The double a numeral stands for, its sign aside. -/
def magnitude (n : Numeral) : Option Binary64 :=
  let (s, left) := gather 0 n.whole
  let (s, shift) : Nat × Int :=
    match n.fraction with
    | none => (s, (left.length : Int))
    | some digits =>
      let (s', left') := gather s digits
      (s', (left.length : Int) - ((digits.length : Int) - (left'.length : Int)))
  match n.exponent with
  | none => scale s shift
  | some (minus, digits) =>
    match exponentValue? 0 digits with
    | some e => scale s (if minus then shift - e else shift + e)
    | none => if s = 0 ∨ minus then some Binary64.zero else none

/-- The digits alone make the value, and it is a whole number. -/
def wholeValue? (n : Numeral) : Option Int :=
  match n.fraction, n.exponent with
  | none, none =>
    match gather 0 n.whole with
    | (s, []) =>
      if !n.negative then some s
      else if s = 0 ∨ Nat.pow 2 63 < s then none
      else some (-(s : Int))
    | _ => none
  | _, _ => none

/-- The value of a numeral, if it is in range. -/
def value? (n : Numeral) : Option Number :=
  match n.wholeValue? with
  | some i => some (.whole i)
  | none => n.magnitude.map fun x => .double (x.withSign n.negative)

end Numeral

end WalletGate.Json
