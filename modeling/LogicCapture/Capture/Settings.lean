import LogicCapture.Capture.Rate

/-!
Capture settings: how fast and how long to sample, and how much of the capture
lies before the trigger. Both counts go to 24-bit registers.
-/

namespace LogicCapture

/-- The largest sample count that a register holds. -/
def maxSampleCount : Nat := 0xFFFFFF

/-- Parameters sent with every acquisition. -/
structure Settings where
  rate : Rate := .full
  /-- Samples in the capture. -/
  length : Nat := 1000
  /-- Samples of it before the trigger. -/
  preTrigger : Nat := 0
  length_pos : 0 < length := by decide
  length_le : length ≤ maxSampleCount := by decide
  preTrigger_le : preTrigger ≤ length := by decide
deriving DecidableEq

namespace Settings

/-- A thousand samples at full speed, none before the trigger. -/
def standard : Settings := {}

/-- Checks in order that there is something to capture, that it fits the
register, and that it reaches the trigger. -/
def make (rate : Rate) (length preTrigger : Nat) : Except CaptureError Settings :=
  if empty : length = 0 then .error .empty
  else if large : maxSampleCount < length then .error (.countTooLarge length)
  else if long : length < preTrigger then .error (.preTriggerTooLong preTrigger length)
  else .ok ⟨rate, length, preTrigger, Nat.pos_of_ne_zero empty, Nat.le_of_not_lt large,
    Nat.le_of_not_lt long⟩

end Settings

end LogicCapture
