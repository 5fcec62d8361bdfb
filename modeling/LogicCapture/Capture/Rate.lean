/-!
Sample rates. The analyser samples on a divided clock of 100 MHz: the clock is
divided by one to four and by a power of ten up to a thousand. Both choices are
two-bit fields of the control register.
-/

namespace LogicCapture

/-- What can be wrong with the parameters of a capture. -/
inductive CaptureError where
  /-- A sample count that the 24-bit registers do not hold. -/
  | countTooLarge (count : Nat)
  | empty
  | preTriggerTooLong (preTrigger length : Nat)
  | rateOutOfRange (divider exponent : Nat)
deriving DecidableEq

def CaptureError.message : CaptureError → String
  | countTooLarge count => s!"Sample count {count} does not fit the 24-bit capture registers"
  | empty => "Capture length must be at least one sample"
  | preTriggerTooLong preTrigger length =>
    s!"Pre-trigger length {preTrigger} exceeds capture length {length}"
  | rateOutOfRange divider exponent =>
    s!"Clock divider {divider} or exponent {exponent} out of range (0..=3)"

/-- A sample clock of 100 MHz divided by `(divider + 1) * 10 ^ exponent`. -/
structure Rate where
  divider : Fin 4
  exponent : Fin 4
deriving DecidableEq

namespace Rate

def make (divider exponent : Nat) : Except CaptureError Rate :=
  if fits : divider < 4 ∧ exponent < 4 then
    .ok ⟨⟨divider, fits.1⟩, ⟨exponent, fits.2⟩⟩
  else .error (.rateOutOfRange divider exponent)

/-- One sample per clock. -/
def full : Rate := ⟨0, 0⟩

/-- Ticks of the sample clock in a second. -/
def clockHertz : Nat := 100000000

/-- Clocks per sample. -/
def divisor (r : Rate) : Nat := (r.divider.val + 1) * Nat.pow 10 r.exponent.val

/-- Nanoseconds between two samples. -/
def periodNanos (r : Rate) : Nat := r.divisor * 1000000000 / clockHertz

/-- Seconds between two samples: whole seconds and the part of one beyond. -/
def periodSeconds (r : Rate) : Float :=
  Float.ofNat (r.periodNanos / 1000000000) +
    Float.ofNat (r.periodNanos % 1000000000) / 1000000000.0

def samplesPerSecond (r : Rate) : Float := Float.ofNat clockHertz / Float.ofNat r.divisor

/-- The rate's fields of the control register: the divider in bits 2 and 3, the
exponent in bits 4 and 5. -/
def controlBits (r : Rate) : UInt8 :=
  UInt8.ofNat (r.divider.val * 4 + r.exponent.val * 16)

end Rate

end LogicCapture
