import LogicCapture.Decimal.Shortest

/-!
Floating-point numbers as text. The digits are those of the shortest decimal;
`Layout` holds what the format decides on top of that, which is from where on
an exponent is written.
-/

namespace LogicCapture.Decimal

/-- Limits of positional writing, counted in places before the point. -/
structure Layout where
  /-- The most places before the point. -/
  mostPlaces : Int
  /-- With this many zeros behind the point or more, an exponent is written. -/
  zeros : Int

/-- Up to sixteen places before the point, up to four zeros behind it. -/
def Layout.table : Layout := ⟨16, 5⟩

/-- A decimal as text: positional with at least one place on either side of the
point, otherwise one digit before the point and an exponent. -/
def Layout.write (l : Layout) (s : Scaled) : String :=
  let digits := Nat.toDigits 10 s.digits
  let places := digits.length + s.exponent
  let zeros (n : Int) : List Char := List.replicate n.toNat '0'
  String.ofList <|
    if 0 ≤ s.exponent ∧ places ≤ l.mostPlaces then digits ++ zeros s.exponent ++ ['.', '0']
    else if 0 < places ∧ places ≤ l.mostPlaces then
      digits.take places.toNat ++ '.' :: digits.drop places.toNat
    else if -l.zeros < places ∧ places ≤ 0 then '0' :: '.' :: zeros (-places) ++ digits
    else digits.take 1 ++ (if digits.length = 1 then [] else '.' :: digits.drop 1) ++
      'e' :: (toString (places - 1)).toList

/-- The number that the bits of a finite double without their sign stand for. -/
def Binary.ofFields (exponent fraction : Nat) : Binary :=
  if exponent = 0 then ⟨fraction, -1074, false⟩
  else ⟨fraction + (1 <<< 52), exponent - 1075, fraction == 0 && 1 < exponent⟩

/-- The bits of a double as text. -/
def Layout.writeBits (l : Layout) (bits : UInt64) : String :=
  let exponent := bits.toNat / (1 <<< 52) % (1 <<< 11)
  let fraction := bits.toNat % (1 <<< 52)
  let sign := if bits.toNat / (1 <<< 63) = 1 then "-" else ""
  if exponent = 2047 then if fraction = 0 then sign ++ "inf" else "NaN"
  else if exponent = 0 ∧ fraction = 0 then sign ++ "0.0"
  else sign ++ l.write (Binary.ofFields exponent fraction).shortest

/-- A double as text. -/
def Layout.writeFloat (l : Layout) (x : Float) : String := l.writeBits x.toBits

end LogicCapture.Decimal
