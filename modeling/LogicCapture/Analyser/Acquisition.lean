import LogicCapture.Analyser.Basic
import LogicCapture.Capture.Reading

/-!
Acquisitions: configure the analyser with a program, start it, follow its
status until the capture is done, and read the samples back. Each part is an
action of its own; `Analyser.capture` runs them all. Following the status takes
a limit on the number of polls, as an analyser may wait for its trigger as long
as it likes; an action that reaches the limit gives no result and can be taken
up again.
-/

namespace LogicCapture.Analyser

variable {σ : Type} [Link σ]

/-! ## Configuration -/

/-- Loads a compiled program; it has to be for the geometry of the analyser. -/
def load (image : Image) : Session σ Unit := do
  if image.geometry ≠ (← get).geometry then
    throw (.trigger .geometryMismatch)
  enter .configuring
  sendPieces .loadTables image.frame
  note (.loaded image.words.length)

/-- Compiles a program and loads its image. -/
def compileAndLoad (program : Program) : Session σ Unit := do
  noteAll program.compileLog
  load program.compile

/-- Lists the steps of a program, compiles it and loads its image. -/
def loadProgram (program : Program) : Session σ Unit := do
  noteAll program.listing
  compileAndLoad program

/-- Writes a sample count to one of the count registers. -/
def writeCount (phase : Phase) (command : Wire.Command) (count : Nat) : Session σ Unit :=
  match Wire.countFrame? command.code count with
  | some frame => sendPieces phase frame
  | none => throw (.capture (.countTooLarge count))

def writeLength (count : Nat) : Session σ Unit := writeCount .writeLength .writeLength count

def writePreTrigger (count : Nat) : Session σ Unit :=
  writeCount .writePreTrigger .writePreTrigger count

def writeControl (control : Control) : Session σ Unit := do
  note (.control control)
  sendPieces .writeControl (Wire.controlFrame control)

/-- Configures the analyser with a program and sets the start bit. -/
def start (program : Program) : Session σ Unit := do
  let rate := Control.rate program.settings.rate.controlBits
  loadProgram program
  writeLength program.settings.length
  writePreTrigger program.settings.preTrigger
  writeControl .clear
  writeControl rate
  writeControl rate.started
  enter .armed

/-! ## What the analyser tells about itself -/

def readStatus : Session σ Status := do
  let byte ← requestByte .readStatus .readStatus
  match Status.ofByte? byte with
  | some status => return status
  | none => throw (.illegalStatus byte)

/-- Reads the version of the bitstream. -/
def readVersion : Session σ UInt8 := requestByte .readVersion .readVersion

/-- Reads the version; a failure is only logged. -/
def tryReadVersion : Session σ (Option UInt8) :=
  tryCatch (some <$> readVersion) fun error => do
    note (.versionUnread error)
    return none

/-- The geometry in a reply: its key, then one byte per dimension. -/
def geometryOfReply : List UInt8 → Except AnalyserError Geometry
  | k₀ :: k₁ :: k₂ :: k₃ :: channels :: steps :: patterns :: counters :: _ =>
    if [k₀, k₁, k₂, k₃] ≠ Wire.geometryKey then .error (.badKey [k₀, k₁, k₂, k₃])
    else (Geometry.make ⟨channels.toNat, steps.toNat, patterns.toNat, counters.toNat⟩).mapError
      .trigger
  | reply => .error (.link .readGeometry (.shortRead 8 reply.length))

def readGeometry : Session σ Geometry := do
  let reply ← request .readGeometry (Wire.bareFrame Wire.Command.readGeometry.code) 8
  match geometryOfReply reply with
  | .ok geometry => return geometry
  | .error error => throw error

/-- Asks a newly linked analyser for its version and its geometry. -/
def probe : Session σ Unit := do
  let version ← readVersion
  modify fun a => { a with version := some version }
  let geometry ← readGeometry
  modify fun a => { a with geometry }
  note (.connected version geometry)

/-! ## Following the status -/

/-- The stage that a status stands for; an idle analyser says nothing about the
acquisition. -/
def stageOf? : Status → Option Stage
  | .pretrigger | .armed => some .armed
  | .run => some .running
  | .done => some .done
  | .idle => none

/-- Reads the status and goes to its stage. -/
def poll : Session σ Status := do
  let status ← readStatus
  match stageOf? status with
  | some stage => enter stage
  | none => pure ()
  return status

/-- Polls until the capture is done, `limit` times at most, and tells whether it
is. A status is logged when it differs from the one before. -/
def pollUntilDone : (limit : Nat) → (before : Option Status) → Session σ Bool
  | 0, _ => return false
  | limit + 1, before => do
    let status ← poll
    unless before = some status do
      note (.status status)
    if status = .done then
      return true
    pollUntilDone limit (some status)

/-! ## Reading back -/

/-- Reads `missing` samples in requests of up to `most` samples each. -/
def requestSamples (most : Nat) (some_fit : 0 < most) (missing : Nat) :
    Session σ (List UInt16) := do
  if missing = 0 then
    return []
  let count := min most missing
  let bytes ← request .readBuffer (Wire.bufferFrame (UInt16.ofNat (2 * count))) (2 * count)
  let rest ← requestSamples most some_fit (missing - count)
  return Wire.samples bytes ++ rest
termination_by missing

/-- Reads `count` samples of the capture. A request asks for whole samples, and
for no more than the link moves and the request can say. -/
def readSamples (count : Nat) : Session σ (List UInt16) := do
  let unit ← transferUnit
  if carries : 2 ≤ unit then
    enter .readingBack
    let samples ← requestSamples (min (unit / 2) 0x7FFF) (by omega) count
    note (.readBack samples.length)
    enter .idle
    return samples
  else throw (.unitTooSmall unit)

/-- Reads back the capture that was made with `settings`. -/
def readReading (settings : Settings) : Session σ Reading := do
  let samples ← readSamples settings.length
  return .ofSettings samples settings

/-- Runs a complete acquisition; none if it is not done within `limit` polls. -/
def capture (limit : Nat) (program : Program) : Session σ (Option Reading) := do
  start program
  if ← pollUntilDone limit none then
    some <$> readReading program.settings
  else return none

end LogicCapture.Analyser
