/-!
# Double-precision numbers as exact fractions

A **double** is kept as its 64 bits.  A finite one stands for `m · 2^q` exactly
(`Binary64.magnitude?`), so every operation here is integer arithmetic: nothing is rounded
but where a result is rounded once, to the nearest double, ties to the even one
(`Binary64.nearest?`).

* `roundHalfEven` — the nearest integer to a fraction, ties to even;
* `Binary64.nearest?` — the nearest double to a fraction, or `none` beyond the range;
* `Binary64.mul?`, `Binary64.div?` — product and quotient, each rounded once.
-/

namespace WalletGate.Decimal

/-- The nearest integer to `num / den`; of two equally near ones the even one. -/
def roundHalfEven (num den : Nat) : Nat :=
  let q := num / den
  let r := num % den
  if 2 * r < den then q
  else if den < 2 * r then q + 1
  else q + q % 2

/-- A double-precision number, as its bit pattern. -/
structure Binary64 where
  bits : UInt64
  deriving DecidableEq, Repr, Inhabited

namespace Binary64

/-- The sign bit. -/
def isNegative (x : Binary64) : Bool :=
  Nat.pow 2 63 ≤ x.bits.toNat

/-- The eleven exponent bits. -/
def exponentField (x : Binary64) : Nat :=
  x.bits.toNat / Nat.pow 2 52 % Nat.pow 2 11

/-- The fifty-two fraction bits. -/
def fractionField (x : Binary64) : Nat :=
  x.bits.toNat % Nat.pow 2 52

/-- The `m` and `q` with `|x| = m · 2^q`, unless `x` is infinite or no number. -/
def magnitude? (x : Binary64) : Option (Nat × Int) :=
  if x.exponentField = 2047 then none
  else if x.exponentField = 0 then some (x.fractionField, -1074)
  else some (x.fractionField + Nat.pow 2 52, (x.exponentField : Int) - 1075)

/-- Both zeros have no bit set but the sign. -/
def isZero (x : Binary64) : Bool :=
  x.bits.toNat % Nat.pow 2 63 = 0

/-- The positive zero. -/
def zero : Binary64 := ⟨0⟩

/-- The number with its sign bit set as asked. -/
def withSign (negative : Bool) (x : Binary64) : Binary64 :=
  let low := x.bits.toNat % Nat.pow 2 63
  ⟨UInt64.ofNat (if negative then Nat.pow 2 63 + low else low)⟩

/-- The nearest double to the fraction `num / den`, unless it is beyond the largest double. -/
def nearest? (num den : Nat) : Option Binary64 :=
  if num = 0 then some zero
  else
    let guess : Int := max ((Nat.log2 num : Int) - (Nat.log2 den : Int) - 53) (-1074)
    let scaled (q : Int) : Nat × Nat := (num * Nat.pow 2 (-q).toNat, den * Nat.pow 2 q.toNat)
    let wide := scaled guess
    let q := if Nat.pow 2 53 ≤ wide.1 / wide.2 then guess + 1 else guess
    let exact := scaled q
    let m := roundHalfEven exact.1 exact.2
    let pattern := if m < Nat.pow 2 52 then m else (q + 1075).toNat * Nat.pow 2 52
      + (m - Nat.pow 2 52)
    if 2047 * Nat.pow 2 52 ≤ pattern then none else some ⟨UInt64.ofNat pattern⟩

/-- The value `m · 2^q` as a fraction. -/
def ratio (m : Nat) (q : Int) : Nat × Nat :=
  (m * Nat.pow 2 q.toNat, Nat.pow 2 (-q).toNat)

/-- The product of two finite magnitudes, rounded once. -/
def mul? (x y : Binary64) : Option Binary64 := do
  let (m, p) ← x.magnitude?
  let (n, q) ← y.magnitude?
  let f := ratio (m * n) (p + q)
  nearest? f.1 f.2

/-- The quotient of two finite magnitudes, rounded once; the divisor is not zero. -/
def div? (x y : Binary64) : Option Binary64 := do
  let (m, p) ← x.magnitude?
  let (n, q) ← y.magnitude?
  let f := ratio m (p - q)
  nearest? f.1 (f.2 * n)

end Binary64

end WalletGate.Decimal
