/-!
The registers of the analyser that carry its state. The control register starts
and clears an acquisition and holds the sample rate; the status byte tells in
its lowest three bits how far the acquisition is.
-/

namespace LogicCapture

/-! ## Control register -/

/-- A value of the control register. -/
structure Control where
  bits : UInt8
deriving DecidableEq

namespace Control

/-- Abandon the acquisition. -/
def clear : Control := ⟨0b10⟩

/-- The rate fields of `bits` alone, neither starting nor clearing. -/
def rate (bits : UInt8) : Control := ⟨bits &&& 0b111100⟩

/-- The same value with the start bit set. -/
def started (c : Control) : Control := ⟨c.bits ||| 1⟩

end Control

/-! ## Status -/

/-- How far the analyser says its acquisition is. -/
inductive Status where
  | idle
  /-- Filling the part of the capture before the trigger. -/
  | pretrigger
  /-- Waiting for the trigger. -/
  | armed
  /-- Sampling after the trigger. -/
  | run
  | done
deriving DecidableEq

namespace Status

def name : Status → String
  | idle => "Idle"
  | pretrigger => "Pretrig"
  | armed => "Armed"
  | run => "Run"
  | done => "Done"

/-- Reads a status byte; only its lowest three bits count, and the values from
5 to 7 mean nothing. -/
def ofByte? (byte : UInt8) : Option Status :=
  match (byte &&& 0b111).toNat with
  | 0 => some idle
  | 1 => some pretrigger
  | 2 => some armed
  | 3 => some run
  | 4 => some done
  | _ => none

end Status

end LogicCapture
