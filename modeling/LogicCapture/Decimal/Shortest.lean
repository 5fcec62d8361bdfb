/-!
The shortest decimal that reads back as a given binary number. All reals in the
interval around a binary number read back as that number; of the decimal grids,
coarse to fine, the first that has a point in the interval is taken, and on it
the point nearest to the number. Everything is exact arithmetic on naturals.
-/

namespace LogicCapture.Decimal

/-! ## Numbers and their intervals -/

/-- The number `significand * 2 ^ exponent`. -/
structure Binary where
  significand : Nat
  exponent : Int
  /-- The next smaller number is only half as far away as the next larger one. -/
  narrow : Bool := false

/-- The number `digits * 10 ^ exponent`. -/
structure Scaled where
  digits : Nat
  exponent : Int
deriving DecidableEq

/-- The reals that read back as `value`: from `low` to `high`, all four numbers
counted in units of one `unit`-th. -/
structure Interval where
  value : Nat
  low : Nat
  high : Nat
  unit : Nat
  /-- Whether the ends belong to the interval. -/
  closed : Bool

/-- Half the distance to either neighbour; the ends belong to the numbers with
an even significand. -/
def Binary.interval (b : Binary) : Interval :=
  let grain := 1 <<< b.exponent.toNat
  { value := 4 * b.significand * grain
    low := (4 * b.significand - if b.narrow then 1 else 2) * grain
    high := (4 * b.significand + 2) * grain
    unit := 4 * (1 <<< (-b.exponent).toNat)
    closed := b.significand % 2 == 0 }

/-! ## Points of decimal grids -/

/-- A decimal point and a bound of the interval as two naturals to compare: the
point first, the bound second. -/
def Interval.scale (i : Interval) (s : Scaled) (bound : Nat) : Nat × Nat :=
  (s.digits * Nat.pow 10 s.exponent.toNat * i.unit, bound * Nat.pow 10 (-s.exponent).toNat)

/-- The decimal lies in the interval. -/
def Interval.contains (i : Interval) (s : Scaled) : Bool :=
  let (point, low) := i.scale s i.low
  let (_, high) := i.scale s i.high
  if i.closed then low ≤ point && point ≤ high else low < point && point < high

/-- The grid point at or below the value. -/
def Interval.floor (i : Interval) (exponent : Int) : Nat :=
  i.value * Nat.pow 10 (-exponent).toNat / (Nat.pow 10 exponent.toNat * i.unit)

/-- Of two neighbouring points around the value the nearer; of two as near, the
even one. -/
def Interval.nearer (i : Interval) (below : Scaled) : Scaled :=
  let above : Scaled := { below with digits := below.digits + 1 }
  let (two, value) := i.scale { below with digits := 2 * below.digits + 1 } (2 * i.value)
  if value < two then below
  else if two < value then above
  else if below.digits % 2 == 0 then below else above

/-- The point of the grid of `10 ^ exponent` that reads back, if there is one. -/
def Interval.onGrid? (i : Interval) (exponent : Int) : Option Scaled :=
  let below : Scaled := ⟨i.floor exponent, exponent⟩
  let above : Scaled := ⟨i.floor exponent + 1, exponent⟩
  match i.contains below, i.contains above with
  | true, true => some (i.nearer below)
  | true, false => some below
  | false, true => some above
  | false, false => none

/-! ## The shortest decimal -/

/-- Places before the decimal point; not positive for values below a tenth. -/
def Interval.magnitude (i : Interval) : Int :=
  let shift := if i.unit ≤ i.value then 0 else Nat.log2 i.unit + 1
  (Nat.toDigits 10 (i.value * Nat.pow 10 shift / i.unit)).length - shift

/-- Removes the zeros at the end of the digits; `fuel` bounds their number. -/
def Scaled.trim : (fuel : Nat) → Scaled → Scaled
  | 0, s => s
  | fuel + 1, s =>
    if s.digits ≠ 0 ∧ s.digits % 10 = 0 then trim fuel ⟨s.digits / 10, s.exponent + 1⟩ else s

/-- The shortest decimal of a number that is not zero. Seventeen digits are
always enough. -/
def Binary.shortest (b : Binary) : Scaled :=
  let i := b.interval
  let places := i.magnitude
  let found := (List.range 17).findSome? fun (n : Nat) => i.onGrid? (places - 1 - n)
  let decimal := found.getD ⟨i.floor (places - 17), places - 17⟩
  decimal.trim 18

end LogicCapture.Decimal
