/-!
Numbers as text of a fixed width: hexadecimal and binary digits with leading
zeros, decimal numbers and words filled up with blanks, and bytes as pairs of
hexadecimal digits. `Text.unhex?` reads such pairs back.
-/

namespace LogicCapture.Text

/-! ## Filling up -/

/-- Fills `text` up to `width` characters with `fill` on the left. -/
def padLeft (fill : Char) (width : Nat) (text : String) : String :=
  String.ofList (List.replicate (width - text.length) fill) ++ text

/-- Fills `text` up to `width` characters with blanks on the right. -/
def padRight (width : Nat) (text : String) : String :=
  text ++ String.ofList (List.replicate (width - text.length) ' ')

/-! ## Numbers -/

/-- The lower-case hexadecimal digits of `n`, at least `width` of them. -/
def hex (width n : Nat) : String :=
  padLeft '0' width (String.ofList (Nat.toDigits 16 n))

/-- The binary digits of `n`, at least `width` of them. -/
def binary (width n : Nat) : String :=
  padLeft '0' width (String.ofList (Nat.toDigits 2 n))

/-- Bytes as two hexadecimal digits each, without separator. -/
def hexBytes (bytes : List UInt8) : String :=
  String.join (bytes.map fun byte => hex 2 byte.toNat)

/-! ## Reading hexadecimal digits -/

/-- The value of one hexadecimal digit of either case. -/
def hexValue? (c : Char) : Option Nat :=
  if '0' ≤ c ∧ c ≤ '9' then some (c.toNat - '0'.toNat)
  else if 'a' ≤ c ∧ c ≤ 'f' then some (c.toNat - 'a'.toNat + 10)
  else if 'A' ≤ c ∧ c ≤ 'F' then some (c.toNat - 'A'.toNat + 10)
  else none

/-- Reads digit pairs from the left onto `read`, whose newest byte comes first. -/
def unhexOnto? (read : List UInt8) : List Char → Option (List UInt8)
  | [] => some read.reverse
  | [_] => none
  | high :: low :: rest =>
    match hexValue? high, hexValue? low with
    | some h, some l => unhexOnto? (UInt8.ofNat (16 * h + l) :: read) rest
    | _, _ => none

/-- Reads bytes from pairs of hexadecimal digits; anything else is refused. -/
def unhex? (text : String) : Option (List UInt8) :=
  unhexOnto? [] text.toList

end LogicCapture.Text
