import WalletGate.Text.Blank

/-!
# Instants

An **instant** is a moment in universal time, to the nanosecond.  It is read from a date, a
time of day and an offset, and written in universal time with as many fraction digits, in
threes, as it needs.

A sixtieth second is a leap second: it belongs to the second before it and its nanoseconds
run on past a thousand million, so that instants stay in order.

Reading is lenient about blanks between the parts and about missing leading zeros.

* `Instant.daysBefore_succ` — a year is 365 days, one more if it is a leap year.
-/

namespace WalletGate

/-- A moment in universal time. -/
structure Instant where
  /-- Seconds since the start of 1970. -/
  seconds : Int
  /-- Nanoseconds into the second; a thousand million or more in a leap second. -/
  nanos : Nat
  deriving DecidableEq, Repr, Inhabited

namespace Instant

/-- One instant is before another. -/
def before (a b : Instant) : Bool :=
  a.seconds < b.seconds || (a.seconds = b.seconds && a.nanos < b.nanos)

/-- A year with a twenty-ninth of February. -/
def isLeap (year : Int) : Bool :=
  year % 4 = 0 && (year % 100 != 0 || year % 400 = 0)

/-- How many days a month has. -/
def monthLength (year : Int) : Nat → Nat
  | 2 => if isLeap year then 29 else 28
  | 4 | 6 | 9 | 11 => 30
  | _ => 31

/-- The days from the start of the year 1 to the start of a year. -/
def daysBefore (year : Int) : Int :=
  let y := year - 1
  y * 365 + y / 4 - y / 100 + y / 400

/-- The days from the start of a year to the start of its month `m`. -/
def daysBeforeMonth (year : Int) : Nat → Nat
  | 0 => 0
  | 1 => 0
  | m + 1 => daysBeforeMonth year m + monthLength year m

/-- The day number of the start of 1970. -/
def epochDay : Int := daysBefore 1970

/-- Days since the start of 1970. -/
def dayNumber (year : Int) (month day : Nat) : Int :=
  daysBefore year + daysBeforeMonth year month + ((day : Int) - 1) - epochDay

/-- The month and day of the given day of a year, found by walking the months from `month`
on. -/
def monthAndDay (year : Int) (month : Nat) : Nat → Nat → Nat × Nat
  | 0, day => (month, day + 1)
  | fuel + 1, day =>
    let n := monthLength year month
    if day < n then (month, day + 1) else monthAndDay year (month + 1) fuel (day - n)

/-- The year, month and day of a day number. -/
def date (days : Int) : Int × Nat × Nat :=
  let d := days + epochDay
  let guess := d * 400 / 146097 + 1
  let year :=
    if d < daysBefore guess then guess - 1
    else if daysBefore (guess + 1) ≤ d then guess + 1
    else guess
  (year, monthAndDay year 1 11 (d - daysBefore year).toNat)

/-- A decimal digit's value. -/
def digit? (c : Char) : Option Nat :=
  if '0' ≤ c ∧ c ≤ '9' then some (c.toNat - 48) else none

/-- Up to `width` digits, on top of the value read so far. -/
def scanDigits : Nat → Nat → List Char → Nat × List Char
  | 0, acc, s => (acc, s)
  | _ + 1, acc, [] => (acc, [])
  | width + 1, acc, c :: s =>
    match digit? c with
    | some d => scanDigits width (acc * 10 + d) s
    | none => (acc, c :: s)

/-- A number of one to `width` digits. -/
def scanNumber (width : Nat) (s : List Char) : Option (Nat × List Char) :=
  match s with
  | [] => none
  | c :: _ => (digit? c).map fun _ => scanDigits width 0 s

/-- A number of one or two digits, blanks allowed in front of it. -/
def scanPair (s : List Char) : Option (Nat × List Char) :=
  scanNumber 2 (Text.trimStart s)

/-- A year: four digits at most, or any number of them behind a sign. -/
def scanYear (s : List Char) : Option (Int × List Char) :=
  match Text.trimStart s with
  | '-' :: rest => (scanNumber rest.length rest).map fun (n, rest) => (-(n : Int), rest)
  | '+' :: rest => (scanNumber rest.length rest).map fun (n, rest) => ((n : Int), rest)
  | rest => (scanNumber 4 rest).map fun (n, rest) => ((n : Int), rest)

/-- A separator, blanks allowed in front of it. -/
def scanMark (mark : Char) (s : List Char) : Option (List Char) :=
  match Text.trimStart s with
  | c :: rest => if c = mark then some rest else none
  | [] => none

/-- Nanoseconds behind a point, if there is a point; digits behind the ninth are dropped. -/
def scanFraction : List Char → Option (Nat × List Char)
  | '.' :: s => do
    let (n, rest) ← scanNumber 9 s
    let width := s.length - rest.length
    pure (n * Nat.pow 10 (9 - width), rest.dropWhile fun c => (digit? c).isSome)
  | s => some (0, s)

/-- Hours and minutes of an offset, both of two digits, in seconds. -/
def scanOffsetTime : List Char → Option (Nat × List Char)
  | a :: b :: s => do
    let a ← digit? a
    let b ← digit? b
    match s.dropWhile fun c => c = ':' || Text.isBlank c with
    | c :: d :: s =>
      let c ← digit? c
      let d ← digit? d
      if c < 6 then pure ((a * 10 + b) * 3600 + (c * 10 + d) * 60, s) else none
    | _ => none
  | _ => none

/-- The offset from universal time, in seconds. -/
def scanOffset : List Char → Option (Int × List Char)
  | 'Z' :: s => some (0, s)
  | 'z' :: s => some (0, s)
  | '+' :: s => (scanOffsetTime s).map fun (n, rest) => ((n : Int), rest)
  | '-' :: s => (scanOffsetTime s).map fun (n, rest) => (-(n : Int), rest)
  | '−' :: s => (scanOffsetTime s).map fun (n, rest) => (-(n : Int), rest)
  | u :: t :: c :: s =>
    if (u = 'U' ∨ u = 'u') ∧ (t = 'T' ∨ t = 't') ∧ (c = 'C' ∨ c = 'c') then some (0, s) else none
  | _ => none

/-- The first and last year an instant may lie in. -/
def yearRange : Int × Int := (-262143, 262142)

/-- The moment lies in the years an instant may lie in. -/
def inRange (seconds : Int) : Bool :=
  dayNumber yearRange.1 1 1 ≤ seconds / 86400 && seconds / 86400 ≤ dayNumber yearRange.2 12 31

/-- The separator between date and time. -/
def afterSeparator : List Char → Option (List Char)
  | c :: s => if c = 'T' ∨ c = 't' ∨ c = ' ' then some s else none
  | [] => none

/-- Reads an instant from its characters. -/
def ofChars? (s : List Char) : Option Instant := do
  let (year, s) ← scanYear s
  let s ← scanMark '-' s
  let (month, s) ← scanPair s
  let s ← scanMark '-' s
  let (day, s) ← scanPair s
  let s ← afterSeparator s
  let (hour, s) ← scanPair s
  let s ← scanMark ':' s
  let (minute, s) ← scanPair s
  let s ← scanMark ':' s
  let (second, s) ← scanPair s
  let (nanos, s) ← scanFraction s
  let (offset, s) ← scanOffset (Text.trimStart s)
  if (Text.trimStart s).isEmpty ∧ yearRange.1 ≤ year ∧ year ≤ yearRange.2
      ∧ 1 ≤ month ∧ month ≤ 12 ∧ 1 ≤ day ∧ day ≤ monthLength year month
      ∧ hour < 24 ∧ minute < 60 ∧ second ≤ 60 ∧ offset.natAbs < 86400 then
    let leap := second = 60
    let clock := hour * 3600 + minute * 60 + (if leap then 59 else second)
    let seconds := dayNumber year month day * 86400 + clock - offset
    if inRange seconds then some ⟨seconds, if leap then nanos + 1000000000 else nanos⟩ else none
  else none

/-- Reads an instant. -/
def ofText? (text : String) : Option Instant :=
  ofChars? text.toList

/-- A number with leading zeros, at least `width` digits long. -/
def padded (width n : Nat) : List Char :=
  let digits := Nat.toDigits 10 n
  List.replicate (width - digits.length) '0' ++ digits

/-- A year: four digits, or with its sign outside of four digits. -/
def yearText (year : Int) : List Char :=
  if 0 ≤ year ∧ year ≤ 9999 then padded 4 year.toNat
  else (if year < 0 then '-' else '+') :: padded 4 year.natAbs

/-- The fraction digits of a second, in threes, as few as are exact. -/
def fractionText (nanos : Nat) : List Char :=
  if nanos = 0 then []
  else if nanos % 1000000 = 0 then '.' :: padded 3 (nanos / 1000000)
  else if nanos % 1000 = 0 then '.' :: padded 6 (nanos / 1000)
  else '.' :: padded 9 nanos

/-- The written form of an instant. -/
def text (t : Instant) : String :=
  let days := t.seconds / 86400
  let clock := (t.seconds % 86400).toNat
  let (year, month, day) := date days
  let leap := 1000000000 ≤ t.nanos
  let second := clock % 60 + (if leap then 1 else 0)
  let nanos := if leap then t.nanos - 1000000000 else t.nanos
  String.ofList
    (yearText year ++ '-' :: padded 2 month ++ '-' :: padded 2 day ++ 'T' :: padded 2 (clock / 3600)
      ++ ':' :: padded 2 (clock / 60 % 60) ++ ':' :: padded 2 second ++ fractionText nanos ++ ['Z'])

/-- A year is 365 days, one more if it is a leap year. -/
theorem daysBefore_succ (year : Int) :
    daysBefore (year + 1) = daysBefore year + 365 + (if isLeap year then 1 else 0) := by
  unfold daysBefore isLeap
  by_cases h4 : year % 4 = 0 <;> by_cases h100 : year % 100 = 0 <;> by_cases h400 :
    year % 400 = 0 <;>
    simp [h4, h100, h400] <;> omega

end Instant

end WalletGate
