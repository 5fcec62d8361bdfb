import LogicCapture.Analyser.Error
import LogicCapture.Trigger.Program
import LogicCapture.Wire.Frame

/-!
The log of an analyser. A line is kept as what happened; its level and its text
follow from that.
-/

namespace LogicCapture

/-- Where the host sees the acquisition. -/
inductive Stage where
  | idle
  | configuring
  | armed
  | running
  | done
  | readingBack
deriving DecidableEq

def Stage.name : Stage → String
  | idle => "Idle"
  | configuring => "Configuring"
  | armed => "Armed"
  | running => "Running"
  | done => "Done"
  | readingBack => "ReadingBack"

/-- Something worth a line of the log. -/
inductive LogLine where
  | stepListed (index : Nat) (step : Step)
  | compiled (words : Nat)
  | stageChanged (before after : Stage)
  | sent (bytes : Nat) (phase : Phase)
  | loaded (words : Nat)
  | control (control : Control)
  | connected (version : UInt8) (geometry : Geometry)
  | versionUnread (error : AnalyserError)
  | status (status : Status)
  | readBack (samples : Nat)
  | cancelled
  /-- The port took a part of a transfer. -/
  | accepted (bytes : Nat)
  | devicesFound (count : Nat) (name : String)
  | connecting (port : String)

namespace LogLine

inductive Level where
  | trace
  | debug
  | info
  | warn
deriving DecidableEq

def Level.name : Level → String
  | trace => "TRACE"
  | debug => "DEBUG"
  | info => "INFO"
  | warn => "WARN"

def level : LogLine → Level
  | sent .. | control _ | accepted _ => .trace
  | connected .. => .info
  | versionUnread _ => .warn
  | _ => .debug

def text : LogLine → String
  | stepListed index step => "  -- " ++ Text.padLeft ' ' 2 (toString index) ++ s!": {step.text}"
  | compiled words => s!"Compiled trigger program into {words} LUTs"
  | stageChanged before after => s!"Driver state {before.name} -> {after.name}"
  | sent bytes phase => s!"Sent {bytes} bytes during {phase.text}"
  | loaded words => s!"Loaded {words} LUTs"
  | control value => s!"Control register <- 0b{Text.binary 8 value.bits.toNat}"
  | connected version geometry =>
    s!"Connected to analyser version {version.toNat}, {geometry.text}"
  | versionUnread error => s!"Could not read analyser version: {error.message}"
  | status reported => s!"Analyser state {reported.name}"
  | readBack samples =>
    s!"Read {samples} samples from C_RD_BUFFER " ++
      s!"(0x{Text.hex 2 Wire.Command.readBuffer.code.toNat})"
  | cancelled => "Acquisition cancelled"
  | accepted bytes => s!"Wrote {bytes} bytes"
  | devicesFound count name => s!"Found {count} analyser(s) named {name}"
  | connecting port => s!"Connecting to analyser on port {port}"

end LogLine

/-- The active steps of a program, a line each. -/
def Program.listing (p : Program) : List LogLine := p.active.mapIdx .stepListed

/-- What compiling a program says. -/
def Program.compileLog (p : Program) : List LogLine := [.compiled p.geometry.totalWords]

end LogicCapture
