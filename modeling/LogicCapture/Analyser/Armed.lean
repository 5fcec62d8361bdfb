import LogicCapture.Analyser.Acquisition

/-!
Acquisitions in flight. An analyser is armed with a program; from then on the
acquisition is waited for, looked at, given up after a while, or cancelled. The
settings of the program go along, as they say what there is to read back.
-/

namespace LogicCapture.Analyser

variable {σ : Type} [Link σ]

/-- Starts an acquisition. An analyser that could not be started is idle
again. -/
def arm (program : Program) : Session σ Unit :=
  tryCatch (start program) fun error => do
    enter .idle
    throw error

/-- Polls once, and reads the capture back if it is done. -/
def tryResult (settings : Settings) : Session σ (Option Reading) := do
  if (← poll) = .done then
    some <$> readReading settings
  else return none

/-- Follows the status until the capture is done and reads it back; none if it
is not done within `limit` polls. -/
def wait (limit : Nat) (settings : Settings) : Session σ (Option Reading) := do
  if ← pollUntilDone limit none then
    some <$> readReading settings
  else return none

/-- Polls until the capture is done, `limit` times at most. After every poll
that finds it not done the clock is looked at, `elapsed i` being what it shows
at look number `i`; at `timeout` the capture has taken too long. -/
def pollInTime (elapsed : Nat → Nat) (timeout : Nat) :
    (limit : Nat) → (look : Nat) → Session σ Bool
  | 0, _ => return false
  | limit + 1, look => do
    let status ← poll
    if status = .done then
      return true
    if timeout ≤ elapsed look then
      throw (.captureTimeout (elapsed (look + 1)) status)
    pollInTime elapsed timeout limit (look + 1)

/-- Waits for the capture as `wait` does, but fails once `timeout` has passed. -/
def waitTimeout (elapsed : Nat → Nat) (timeout limit : Nat) (settings : Settings) :
    Session σ (Option Reading) := do
  if ← pollInTime elapsed timeout limit 0 then
    some <$> readReading settings
  else return none

/-- Abandons the acquisition. -/
def cancel : Session σ Unit := do
  writeControl .clear
  enter .idle
  note .cancelled

end LogicCapture.Analyser
