import WalletGate.Decimal.Shortest

/-!
# How a double is written

The digits of a double come from `shortest`; a **layout** says how they are put down: which
decimal exponents are written positionally, which way ties go, and what stands for the
values that are no finite number.  A positional text always has a point and a digit on each
side of it.

* `Layout.json` — positional for exponents from −5 to 15, else with `e`, as in JSON messages;
* `Layout.plain` — always positional, as in the wording of a settings fault.
-/

namespace WalletGate.Decimal

/-- The decisions of one written form. -/
structure Layout where
  tie : Tie
  /-- The decimal exponents of the leading digit that are written positionally; `none` is
  all. -/
  positional : Option (Int × Int)

namespace Layout

/-- Doubles in JSON text. -/
def json : Layout := ⟨.toEven, some (-5, 15)⟩

/-- Doubles in the wording of a fault about settings. -/
def plain : Layout := ⟨.up, none⟩

/-- The digits with a point in the right place, padded by zeros where the point lies outside. -/
def positionalText (digits : List Char) (exponent : Int) : List Char :=
  let point := (digits.length : Int) + exponent
  if 0 ≤ exponent then digits ++ List.replicate exponent.toNat '0' ++ ['.', '0']
  else if 0 < point then digits.take point.toNat ++ '.' :: digits.drop point.toNat
  else '0' :: '.' :: (List.replicate (-point).toNat '0' ++ digits)

/-- One digit before the point, the others behind it, and the exponent with its sign. -/
def exponentText (digits : List Char) (exponent : Int) : List Char :=
  let lead := (digits.length : Int) + exponent - 1
  let sign := if lead < 0 then '-' else '+'
  let tail := 'e' :: sign :: Nat.toDigits 10 lead.natAbs
  match digits with
  | [] => tail
  | [d] => d :: tail
  | d :: more => d :: '.' :: (more ++ tail)

/-- The text of a magnitude that is not zero. -/
def magnitudeText (layout : Layout) (m : Nat) (q : Int) : List Char :=
  let d := shortest layout.tie m q
  let digits := Nat.toDigits 10 d.digits
  let lead := (digits.length : Int) + d.exponent - 1
  match layout.positional with
  | none => positionalText digits d.exponent
  | some (least, greatest) =>
    if least ≤ lead ∧ lead ≤ greatest then positionalText digits d.exponent
    else exponentText digits d.exponent

/-- The text of a double. -/
def text (layout : Layout) (x : Binary64) : List Char :=
  let sign := if x.isNegative then ['-'] else []
  match x.magnitude? with
  | some (0, _) => sign ++ ['0', '.', '0']
  | some (m, q) => sign ++ layout.magnitudeText m q
  | none => if x.fractionField = 0 then sign ++ ['i', 'n', 'f'] else ['N', 'a', 'N']

end Layout

end WalletGate.Decimal
