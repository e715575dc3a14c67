import WalletGate.Decimal.Binary64

/-!
# The shortest decimal that reads back

Every finite double other than zero is the nearest double to each decimal in a small
interval around it.  Of the decimals in that interval the ones with the fewest digits are
**shortest**, and of those the one nearest to the double is chosen.  Only an exact tie
between two of them is left to the caller (`Tie`).

All comparisons are between integers: the double, the ends of its interval and the candidate
digits are brought over one denominator first.
-/

namespace WalletGate.Decimal

/-- Which of two equally near decimals of equal length is taken. -/
inductive Tie where
  | toEven
  | up
  deriving DecidableEq, Repr

/-- The decimal `digits · 10^exponent`. -/
structure Scaled where
  digits : Nat
  exponent : Int
  deriving DecidableEq, Repr

namespace Scaled

/-- The same decimal without trailing zeros among its digits; at most `fuel` of them are
removed. -/
def trimZeros : Nat → Scaled → Scaled
  | 0, d => d
  | fuel + 1, d =>
    if d.digits % 10 = 0 ∧ d.digits ≠ 0 then trimZeros fuel ⟨d.digits / 10, d.exponent + 1⟩ else d

end Scaled

/-- A double between the two ends of its interval, all three over the denominator `den`. -/
structure Interval where
  low : Nat
  value : Nat
  high : Nat
  den : Nat
  /-- The ends themselves read back as the double. -/
  closed : Bool

namespace Interval

/-- The interval of the double `m · 2^q`: half a step to each side, a quarter step
below where the steps get smaller. -/
def ofMagnitude (m : Nat) (q : Int) : Interval :=
  let below := if m = Nat.pow 2 52 ∧ -1074 < q then 1 else 2
  let up := Nat.pow 2 (q - 2).toNat
  ⟨(4 * m - below) * up, 4 * m * up, (4 * m + 2) * up, Nat.pow 2 (2 - q).toNat, m % 2 = 0⟩

/-- The fraction `num / 1` times `10^k` lies in the interval. -/
def admits (i : Interval) (digits : Nat) (k : Int) : Bool :=
  let x := digits * Nat.pow 10 k.toNat * i.den
  let s := Nat.pow 10 (-k).toNat
  if i.closed then i.low * s ≤ x && x ≤ i.high * s else i.low * s < x && x < i.high * s

/-- The two neighbours of the value on the grid of multiples of `10^k` that read back, the
nearer one of them, if there is any. -/
def onGrid? (tie : Tie) (i : Interval) (k : Int) : Option Nat :=
  let num := i.value * Nat.pow 10 (-k).toNat
  let den := i.den * Nat.pow 10 k.toNat
  let floor := num / den
  let rest := num % den
  let lower := 0 < floor && i.admits floor k
  let upper := i.admits (floor + 1) k
  if lower && upper then
    if 2 * rest < den then some floor
    else if den < 2 * rest then some (floor + 1)
    else match tie with
      | .toEven => some (floor + floor % 2)
      | .up => some (floor + 1)
  else if lower then some floor
  else if upper then some (floor + 1)
  else none

/-- Tries the grid `10^k` and then `fuel` finer ones, one after another. -/
def search (tie : Tie) (i : Interval) : Nat → Int → Option Scaled
  | 0, k => (i.onGrid? tie k).map (⟨·, k⟩)
  | fuel + 1, k =>
    match i.onGrid? tie k with
    | some d => some ⟨d, k⟩
    | none => search tie i fuel (k - 1)

end Interval

/-- The largest power of ten that is at most the fraction below one, tried from `10^-j` on. -/
def leadingExponentBelowOne (num den : Nat) : Nat → Nat → Int
  | 0, j => -(j : Int)
  | fuel + 1, j =>
    if den ≤ num * Nat.pow 10 j then -(j : Int) else leadingExponentBelowOne num den fuel (j + 1)

/-- The exponent of the leading decimal digit of a fraction. -/
def leadingExponent (num den : Nat) : Int :=
  if den ≤ num then ((Nat.toDigits 10 (num / den)).length : Int) - 1
  else leadingExponentBelowOne num den 400 1

/-- The shortest decimal that reads back as the double `m · 2^q`, without trailing zeros. -/
def shortest (tie : Tie) (m : Nat) (q : Int) : Scaled :=
  let i := Interval.ofMagnitude m q
  let top := leadingExponent i.value i.den
  match i.search tie 17 top with
  | some d => Scaled.trimZeros 400 d
  | none => ⟨m, q⟩

end WalletGate.Decimal
