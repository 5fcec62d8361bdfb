import LogicCapture.Capture.Settings
import LogicCapture.Trigger.Step

/-!
Trigger programs: a step for every slot of an engine, the slot that ends the
sequence, and the settings of the capture. A program is always complete, its
steps fit its engine, and its last slot exists: each operation goes over to a
program with these facts, or fails before it has changed anything.
-/

namespace LogicCapture

structure Program where
  geometry : Geometry
  steps : List Step
  /-- Number of the step that ends the sequence. -/
  last : Nat
  settings : Settings
  steps_length : steps.length = geometry.stepSlots
  steps_fit : ∀ step ∈ steps, step.Fits geometry
  last_lt : last < geometry.stepSlots

namespace Program

/-- The program whose only active step is neutral, so that it triggers on the
first sample. -/
def make (geometry : Geometry) (settings : Settings) : Program where
  geometry
  steps := List.replicate geometry.stepSlots (Step.neutral geometry)
  last := 0
  settings
  steps_length := List.length_replicate
  steps_fit := fun _ mem => List.eq_of_mem_replicate mem ▸ Step.neutral_fits geometry
  last_lt := geometry.stepSlots_pos

/-- The program with another step in slot `index`. -/
def withStep (p : Program) (index : Nat) {step : Step} (fits : step.Fits p.geometry) : Program :=
  { p with
    steps := p.steps.set index step
    steps_length := by rw [List.length_set, p.steps_length]
    steps_fit := by
      intro s mem
      rcases List.mem_or_eq_of_mem_set mem with old | new
      · exact p.steps_fit s old
      · exact new ▸ fits }

/-- The program that ends with slot `index`. -/
def withLast (p : Program) {index : Nat} (within : index < p.steps.length) : Program :=
  { p with last := index, last_lt := p.steps_length ▸ within }

/-- Puts a step into slot `index`. A step for another engine is reported before
a slot that does not exist. -/
def setStep (index : Nat) (step : Step) : EStateM TriggerError Program Unit := do
  let p ← get
  if fits : step.Fits p.geometry then
    if index < p.steps.length then
      set (p.withStep index fits)
    else throw (.noSuchStep index p.steps.length)
  else throw .geometryMismatch

/-- Lets the sequence end with slot `index`. -/
def setLast (index : Nat) : EStateM TriggerError Program Unit := do
  let p ← get
  if within : index < p.steps.length then
    set (p.withLast within)
  else throw (.noSuchStep index p.steps.length)

def setSettings (settings : Settings) : EStateM TriggerError Program Unit :=
  modify fun p => { p with settings }

/-- Puts steps into the slots from `index` on. -/
def setStepsFrom : (index : Nat) → List Step → EStateM TriggerError Program Unit
  | _, [] => return
  | index, step :: rest => do
    setStep index step
    setStepsFrom (index + 1) rest

/-- Puts steps into the first slots; the last of them ends the sequence. -/
def fill (steps : List Step) : EStateM TriggerError Program Unit := do
  setStepsFrom 0 steps
  setLast (steps.length - 1)

/-- The program that runs `steps` in order. -/
def ofSteps (geometry : Geometry) (steps : List Step) (settings : Settings) :
    Except TriggerError Program := do
  if steps.isEmpty then
    throw .noSteps
  match fill steps (make geometry settings) with
  | .ok _ program => return program
  | .error error _ => throw error

/-- The steps that take part in the sequence. -/
def active (p : Program) : List Step := p.steps.take (p.last + 1)

theorem length_active (p : Program) : p.active.length = p.last + 1 := by
  have within := p.last_lt
  simp only [active, List.length_take, p.steps_length]
  omega

theorem active_fit (p : Program) : ∀ step ∈ p.active, step.Fits p.geometry :=
  fun step mem => p.steps_fit step (List.mem_of_mem_take mem)

end Program

end LogicCapture
