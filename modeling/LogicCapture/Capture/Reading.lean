import LogicCapture.Capture.Settings
import LogicCapture.Image.Bits

/-!
Readings: the samples of a finished capture together with how they were taken.
A sample carries sixteen channels; channels beyond them are read as low.
-/

namespace LogicCapture

/-- Channels that one sample carries. -/
def sampleBits : Nat := 16

/-- Samples of a capture, oldest first. -/
structure Reading where
  samples : List UInt16
  rate : Rate
  /-- Samples taken before the trigger. -/
  preTrigger : Nat
deriving DecidableEq

/-! ## Single channels of a sample -/

/-- A number as it counts places of a shift, unless it is too large for that. -/
def places? (n : Nat) : Option UInt32 :=
  if n < UInt32.size then some (.ofNat n) else none

/-- The sample shifted to the left, unless it is shifted out altogether. -/
def shiftLeft? (sample : UInt16) (places : UInt32) : Option UInt16 :=
  if places.toNat < sampleBits then some (sample <<< places.toUInt16) else none

/-- The sample with one channel high. There is none for channels that are not carried,
and the mask is empty then. -/
def channelMask (bit : Nat) : UInt16 :=
  (places? bit).bind (shiftLeft? 1) |>.getD 0

theorem channelMask_of_lt {bit : Nat} (lt : bit < sampleBits) :
    channelMask bit = 1 <<< UInt16.ofNat bit := by
  have counted : bit < UInt32.size := Nat.lt_trans lt (by decide)
  have kept : (UInt32.ofNat bit).toNat = bit := UInt32.toNat_ofNat_of_lt' counted
  have places : (UInt32.ofNat bit).toUInt16 = UInt16.ofNat bit := UInt32.toUInt16_ofNat
  rw [channelMask, places?, if_pos counted, Option.bind_some, shiftLeft?, kept, if_pos lt, places,
    Option.getD_some]

theorem channelMask_of_le {bit : Nat} (le : sampleBits ≤ bit) : channelMask bit = 0 := by
  rw [channelMask, places?]
  split
  · next counted =>
    have kept : (UInt32.ofNat bit).toNat = bit := UInt32.toNat_ofNat_of_lt' counted
    rw [Option.bind_some, shiftLeft?, kept, if_neg (Nat.not_lt_of_le le), Option.getD_none]
  · rfl

theorem toNat_channelMask {bit : Nat} (lt : bit < sampleBits) :
    (channelMask bit).toNat = 1 <<< bit := by
  have small : bit < UInt16.size := Nat.lt_trans lt (by decide)
  have fits : 1 <<< bit < UInt16.size := by
    rw [Nat.one_shiftLeft]
    exact Nat.pow_lt_pow_right (by decide) lt
  rw [channelMask_of_lt lt, UInt16.toNat_shiftLeft, UInt16.toNat_ofNat_of_lt' small,
    Nat.mod_eq_of_lt (show bit < 16 from lt), UInt16.toNat_one]
  exact Nat.mod_eq_of_lt fits

/-- The mask picks one bit of a sample, if it has that bit. -/
theorem and_channelMask_ne_zero (sample : UInt16) (bit : Nat) : (sample &&& channelMask bit != 0) =
    (decide (bit < sampleBits) && sample.toNat.testBit bit) := by
  rcases Nat.lt_or_ge bit sampleBits with lt | ge
  · rw [decide_eq_true lt, Bool.true_and, Bool.eq_iff_iff, bne_iff_ne, Ne, ← UInt16.toNat_inj,
      UInt16.toNat_and, toNat_channelMask lt]
    exact and_shiftLeft_ne_zero sample.toNat bit
  · rw [decide_eq_false (Nat.not_lt_of_le ge), Bool.false_and, channelMask_of_le ge,
      UInt16.and_zero, bne_self_eq_false]

namespace Reading

def ofSettings (samples : List UInt16) (settings : Settings) : Reading :=
  ⟨samples, settings.rate, settings.preTrigger⟩

/-- Levels of one channel over the capture. -/
def channel (r : Reading) (bit : Nat) : List Bool :=
  r.samples.map fun sample => sample &&& channelMask bit != 0

/-- Seconds from the trigger to sample number `index`. -/
def time (r : Reading) (index : Nat) : Float :=
  (Float.ofNat index - Float.ofNat r.preTrigger) * r.rate.periodSeconds

end Reading

end LogicCapture
