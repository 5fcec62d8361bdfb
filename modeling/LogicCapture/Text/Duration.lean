import LogicCapture.Text.Digits

/-!
Time spans as text. A span is counted in nanoseconds and written in the largest
of the units s, ms, µs and ns that it reaches, with as many decimal places as
it needs: `1.5s`, `10ms`, `0ns`.
-/

namespace LogicCapture.Text

/-- The decimal places of `rest` thousandths, millionths or billionths, without
the zeros at their end. -/
def places (width rest : Nat) : String :=
  let digits := (padLeft '0' width (toString rest)).toList.reverse.dropWhile (· == '0')
  if digits.isEmpty then "" else "." ++ String.ofList digits.reverse

/-- A span of `nanos` nanoseconds in its largest unit. -/
def duration (nanos : Nat) : String :=
  let spell (width : Nat) (unit : String) : String :=
    toString (nanos / Nat.pow 10 width) ++ places width (nanos % Nat.pow 10 width) ++ unit
  if 1000000000 ≤ nanos then spell 9 "s"
  else if 1000000 ≤ nanos then spell 6 "ms"
  else if 1000 ≤ nanos then spell 3 "µs"
  else toString nanos ++ "ns"

end LogicCapture.Text
