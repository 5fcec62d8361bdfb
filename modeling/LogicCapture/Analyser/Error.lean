import LogicCapture.Capture.Settings
import LogicCapture.Link.Error
import LogicCapture.Text.Digits
import LogicCapture.Text.Duration
import LogicCapture.Trigger.Error
import LogicCapture.Wire.Control

/-!
Failures of an acquisition. A failed transfer is reported with the phase of the
acquisition that it belonged to.
-/

namespace LogicCapture

/-! ## Phases -/

/-- What a transfer was for. -/
inductive Phase where
  | loadTables
  | writeLength
  | writePreTrigger
  | writeControl
  | readStatus
  | readBuffer
  | readVersion
  | readGeometry
deriving DecidableEq

def Phase.text : Phase → String
  | loadTables => "load LUTs"
  | writeLength => "write capture length"
  | writePreTrigger => "write pre-trigger"
  | writeControl => "write control"
  | readStatus => "read status"
  | readBuffer => "read capture data"
  | readVersion => "read version"
  | readGeometry => "read geometry"

/-! ## Errors -/

inductive AnalyserError where
  | link (phase : Phase) (cause : LinkError)
  | illegalStatus (byte : UInt8)
  /-- The capture was not done after `elapsed` nanoseconds. -/
  | captureTimeout (elapsed : Nat) (last : Status)
  /-- A geometry reply that starts with the wrong bytes. -/
  | badKey (key : List UInt8)
  /-- A transfer unit that no sample fits into. -/
  | unitTooSmall (unit : Nat)
  | trigger (cause : TriggerError)
  | capture (cause : CaptureError)
deriving DecidableEq

def AnalyserError.message : AnalyserError → String
  | link phase cause => s!"Transport failed during {phase.text}: {cause.message}"
  | illegalStatus byte => s!"Analyser reported illegal state 0x{Text.hex 2 byte.toNat}"
  | captureTimeout elapsed last =>
    s!"Capture not done after {Text.duration elapsed}, analyser still {last.name}"
  | badKey key =>
    let digits := ", ".intercalate (key.map fun byte => (Text.hex 2 byte.toNat).toUpper)
    s!"Unexpected configuration key [{digits}]"
  | unitTooSmall unit => s!"Transfer unit of {unit} bytes cannot carry a sample"
  | trigger cause => s!"Trigger configuration error: {cause.message}"
  | capture cause => s!"Capture configuration error: {cause.message}"

end LogicCapture
