import LogicCapture.Wire.Frame
import LogicCapture.Wire.Word
import Mathlib.Algebra.Group.Nat.Defs
import Mathlib.Data.List.DropRight

/-!
# Numbers on the wire

Lengths and counts go out with their low byte first, table words with their
high byte first. `littleEndian` is the one encoding behind both; the frames of
`LogicCapture.Wire` are written in terms of it here.
-/

namespace LogicCapture.Wire

/-- The lowest `width` bytes of a number, low byte first. -/
def littleEndian : (width : Nat) → Nat → List UInt8
  | 0, _ => []
  | width + 1, n => UInt8.ofNat n :: littleEndian width (n / 256)

/-- The same bytes with the high byte first. -/
def bigEndian (width n : Nat) : List UInt8 := (littleEndian width n).reverse

/-- The number that bytes stand for, low byte first. -/
def ofLittleEndian : List UInt8 → Nat
  | [] => 0
  | byte :: rest => byte.toNat + 256 * ofLittleEndian rest

theorem length_littleEndian (width n : Nat) : (littleEndian width n).length = width := by
  induction width generalizing n with
  | zero => rfl
  | succ width ih => rw [littleEndian, List.length_cons, ih]

/-- A number that fits its bytes comes back from them. -/
theorem ofLittleEndian_littleEndian {width n : Nat} (fits : n < 256 ^ width) :
    ofLittleEndian (littleEndian width n) = n := by
  induction width generalizing n with
  | zero =>
    rw [Nat.pow_zero] at fits
    obtain rfl : n = 0 := by omega
    rfl
  | succ width ih =>
    have rest : n / 256 < 256 ^ width := by
      rw [Nat.pow_succ'] at fits
      exact Nat.div_lt_of_lt_mul fits
    rw [littleEndian, ofLittleEndian, ih rest, UInt8.toNat_ofNat']
    exact Nat.mod_add_div n 256

/-- Bytes come back from the number that they stand for. -/
theorem littleEndian_ofLittleEndian (bytes : List UInt8) :
    littleEndian bytes.length (ofLittleEndian bytes) = bytes := by
  induction bytes with
  | nil => rfl
  | cons byte rest ih =>
    have lt := byte.toNat_lt
    have lowest : UInt8.ofNat (byte.toNat + 256 * ofLittleEndian rest) = byte := by
      apply UInt8.toNat_inj.1
      rw [UInt8.toNat_ofNat', Nat.add_mul_mod_self_left]
      exact Nat.mod_eq_of_lt lt
    have behind : (byte.toNat + 256 * ofLittleEndian rest) / 256 = ofLittleEndian rest := by omega
    rw [List.length_cons, ofLittleEndian, littleEndian, lowest, behind, ih]

/-! ## Frames -/

theorem pairBytes_eq {n : Nat} (fits : n < 65536) :
    pairBytes (UInt16.ofNat n) = littleEndian 2 n := by
  have value : (UInt16.ofNat n).toNat = n := by
    rw [UInt16.toNat_ofNat']
    exact Nat.mod_eq_of_lt fits
  have low : (UInt16.ofNat n).toUInt8 = UInt8.ofNat n := by
    apply UInt8.toNat_inj.1
    rw [UInt16.toNat_toUInt8, value, UInt8.toNat_ofNat']
  have high : (UInt16.ofNat n >>> 8).toUInt8 = UInt8.ofNat (n / 256) := by
    apply UInt8.toNat_inj.1
    rw [UInt16.toNat_toUInt8, UInt16.toNat_shiftRight, value, UInt8.toNat_ofNat']
    change (n >>> 8) % 256 = _
    rw [Nat.shiftRight_eq_div_pow]
  rw [pairBytes, low, high]
  rfl

theorem countFrame?_eq {code : UInt8} {count : Nat} (fits : count ≤ maxSampleCount) :
    countFrame? code count = some (code :: littleEndian 3 count) := by
  have twice : count / 65536 = count / 256 / 256 := (Nat.div_div_eq_div_mul count 256 256).symm
  rw [countFrame?, if_pos fits, twice]
  rfl

theorem wordBytes_eq (word : UInt32) : wordBytes word = bigEndian 4 word.toNat := by
  have byte : ∀ shift : UInt32, shift.toNat < 32 →
      (word >>> shift).toUInt8 = UInt8.ofNat (word.toNat / 2 ^ shift.toNat) := by
    intro shift lt
    apply UInt8.toNat_inj.1
    rw [UInt32.toNat_toUInt8, UInt32.toNat_shiftRight, UInt8.toNat_ofNat', Nat.mod_eq_of_lt lt,
      Nat.shiftRight_eq_div_pow]
  have lowest : word.toUInt8 = UInt8.ofNat word.toNat := by
    apply UInt8.toNat_inj.1
    rw [UInt32.toNat_toUInt8, UInt8.toNat_ofNat']
  have twice : word.toNat / 256 / 256 = word.toNat / 65536 :=
    Nat.div_div_eq_div_mul word.toNat 256 256
  have thrice : word.toNat / 256 / 256 / 256 = word.toNat / 16777216 := by
    rw [twice]
    exact Nat.div_div_eq_div_mul word.toNat 65536 256
  rw [wordBytes, byte 24 (by decide), byte 16 (by decide), byte 8 (by decide), lowest]
  change _ = [UInt8.ofNat (word.toNat / 256 / 256 / 256), UInt8.ofNat (word.toNat / 256 / 256),
    _, _]
  rw [thrice, twice]
  rfl

theorem ofWords_eq (words : List UInt32) :
    ofWords words = words.flatMap fun word => bigEndian 4 word.toNat := by
  rw [ofWords, funext wordBytes_eq]

/-! ## Words read back -/

/-- A number above bits that are all clear is joined by addition. -/
theorem shiftLeft_or_eq_add {low : Nat} (high : Nat) {n : Nat} (fits : low < 2 ^ n) :
    high <<< n ||| low = high * 2 ^ n + low := by
  rw [Nat.shiftLeft_eq, Nat.mul_comm, Nat.two_pow_add_eq_or_of_lt fits]

theorem toNat_wordOfBytes (b₃ b₂ b₁ b₀ : UInt8) : (wordOfBytes b₃ b₂ b₁ b₀).toNat =
    b₃.toNat * 2 ^ 24 + (b₂.toNat * 2 ^ 16 + (b₁.toNat * 2 ^ 8 + b₀.toNat)) := by
  have lt₃ : b₃.toNat < 2 ^ 8 := b₃.toNat_lt
  have lt₂ : b₂.toNat < 2 ^ 8 := b₂.toNat_lt
  have lt₁ : b₁.toNat < 2 ^ 8 := b₁.toNat_lt
  have lt₀ : b₀.toNat < 2 ^ 8 := b₀.toNat_lt
  have shifted : ∀ (b : UInt8) (n : Nat), n ≤ 24 → b.toNat <<< n % 2 ^ 32 = b.toNat <<< n := by
    intro b n le
    have lt : b.toNat < 2 ^ 8 := b.toNat_lt
    apply Nat.mod_eq_of_lt
    rw [Nat.shiftLeft_eq]
    calc b.toNat * 2 ^ n
      _ ≤ b.toNat * 2 ^ 24 := Nat.mul_le_mul_left _ (Nat.pow_le_pow_right (by decide) le)
      _ < 2 ^ 32 := by omega
  have value : (wordOfBytes b₃ b₂ b₁ b₀).toNat =
      b₃.toNat <<< 24 ||| (b₂.toNat <<< 16 ||| (b₁.toNat <<< 8 ||| b₀.toNat)) := by
    rw [wordOfBytes, UInt32.toNat_or, UInt32.toNat_or, UInt32.toNat_or, UInt32.toNat_shiftLeft,
      UInt32.toNat_shiftLeft, UInt32.toNat_shiftLeft]
    simp only [UInt8.toNat_toUInt32]
    change b₃.toNat <<< 24 % 2 ^ 32 ||| b₂.toNat <<< 16 % 2 ^ 32 ||| b₁.toNat <<< 8 % 2 ^ 32 |||
      b₀.toNat = _
    rw [shifted b₃ 24 (by decide), shifted b₂ 16 (by decide), shifted b₁ 8 (by decide),
      Nat.or_assoc, Nat.or_assoc]
  rw [value, shiftLeft_or_eq_add b₁.toNat lt₀, shiftLeft_or_eq_add b₂.toNat (by omega),
    shiftLeft_or_eq_add b₃.toNat (by omega)]

theorem wordOfBytes_wordBytes (word : UInt32) :
    wordOfBytes (word >>> 24).toUInt8 (word >>> 16).toUInt8 (word >>> 8).toUInt8 word.toUInt8 =
      word := by
  have lt := word.toNat_lt
  apply UInt32.toNat_inj.1
  rw [toNat_wordOfBytes]
  simp only [UInt32.toNat_toUInt8, UInt32.toNat_shiftRight, Nat.shiftRight_eq_div_pow]
  change word.toNat / 2 ^ 24 % 2 ^ 8 * 2 ^ 24 + (word.toNat / 2 ^ 16 % 2 ^ 8 * 2 ^ 16 +
    (word.toNat / 2 ^ 8 % 2 ^ 8 * 2 ^ 8 + word.toNat % 2 ^ 8)) = word.toNat
  omega

theorem wordBytes_wordOfBytes (b₃ b₂ b₁ b₀ : UInt8) :
    wordBytes (wordOfBytes b₃ b₂ b₁ b₀) = [b₃, b₂, b₁, b₀] := by
  have value : (wordOfBytes b₃ b₂ b₁ b₀).toNat = ofLittleEndian [b₀, b₁, b₂, b₃] := by
    rw [toNat_wordOfBytes]
    simp only [ofLittleEndian]
    omega
  have bytes : littleEndian 4 (ofLittleEndian [b₀, b₁, b₂, b₃]) = [b₀, b₁, b₂, b₃] :=
    littleEndian_ofLittleEndian [b₀, b₁, b₂, b₃]
  rw [wordBytes_eq, value, bigEndian, bytes]
  rfl

theorem length_ofWords (words : List UInt32) : (ofWords words).length = 4 * words.length := by
  induction words with
  | nil => rfl
  | cons word rest ih =>
    rw [ofWords, List.flatMap_cons, List.length_append, ← ofWords, ih, List.length_cons]
    exact Nat.add_comm 4 _

/-- Words come back from their bytes. -/
theorem toWords_ofWords (words : List UInt32) : toWords (ofWords words) = words := by
  induction words with
  | nil => rfl
  | cons word rest ih =>
    have bytes : ofWords (word :: rest) = (word >>> 24).toUInt8 :: (word >>> 16).toUInt8 ::
        (word >>> 8).toUInt8 :: word.toUInt8 :: ofWords rest := rfl
    rw [bytes, toWords, wordOfBytes_wordBytes, ih]

/-- Bytes come back from their words, but for those at the end that make no whole word. -/
theorem ofWords_toWords (bytes : List UInt8) :
    ofWords (toWords bytes) = bytes.rdrop (bytes.length % 4) := by
  fun_induction toWords bytes with
  | case1 b₃ b₂ b₁ b₀ rest ih =>
    have left : (b₃ :: b₂ :: b₁ :: b₀ :: rest).length % 4 = rest.length % 4 :=
      Nat.add_mod_right rest.length 4
    have kept : (b₃ :: b₂ :: b₁ :: b₀ :: rest).length - rest.length % 4 =
        rest.length - rest.length % 4 + 4 := by
      simp only [List.length_cons]
      omega
    rw [ofWords, List.flatMap_cons, ← ofWords, ih, wordBytes_wordOfBytes, left, List.rdrop,
      List.rdrop, kept]
    rfl
  | case2 bytes short =>
    match bytes, short with
    | [], _ | [_], _ | [_, _], _ | [_, _, _], _ => rfl
    | b₃ :: b₂ :: b₁ :: b₀ :: rest, short => exact (short b₃ b₂ b₁ b₀ rest rfl).elim

end LogicCapture.Wire
