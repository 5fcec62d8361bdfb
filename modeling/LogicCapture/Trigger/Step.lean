import LogicCapture.Text.Digits
import LogicCapture.Trigger.Combination
import LogicCapture.Trigger.Pattern

/-!
Steps of a trigger sequence. A step compares the samples with a few patterns,
combines their matches, and is passed once that result has come true as often
as its match count says. A step on its own may have any number of patterns of
any width; `Step.Fits` says that an engine can hold it.
-/

namespace LogicCapture

/-- A pattern and what its match counts for. -/
structure Condition where
  pattern : Pattern
  polarity : Polarity
deriving DecidableEq

/-- One stage of the trigger sequence. -/
structure Step where
  conditions : List Condition
  operation : Operation := .conj
  /-- Whether the matches have to be on consecutive samples. -/
  contiguous : Bool := false
  count : UInt16 := 0
deriving DecidableEq

namespace Step

/-- The step that matches every sample and never holds up the sequence. -/
def neutral (g : Geometry) : Step :=
  { conditions := List.replicate g.patternSlots ⟨.free g.channels, .normal⟩ }

/-- The step has the patterns of the geometry, each as wide as the bus. -/
def Fits (s : Step) (g : Geometry) : Prop :=
  s.conditions.length = g.patternSlots ∧ ∀ c ∈ s.conditions, c.pattern.width = g.channels

instance (s : Step) (g : Geometry) : Decidable (s.Fits g) := by
  unfold Fits
  infer_instance

def polarities (s : Step) : List Polarity := s.conditions.map Condition.polarity

/-- Condition number `index` as it is listed. -/
def conditionText (index : Nat) (c : Condition) : String :=
  s!" T{index}[{c.pattern.text}, {Text.padRight 8 c.polarity.name}]"

/-- The step on one line: operation, conditions, contiguity, count. -/
def text (s : Step) : String :=
  Text.padRight 3 s.operation.name ++
    String.join (s.conditions.mapIdx conditionText) ++
    (if s.contiguous then " Contiguous" else "") ++ s!" Count = {s.count.toNat}"

theorem neutral_fits (g : Geometry) : (neutral g).Fits g := by
  constructor
  · simp [neutral]
  · intro c mem
    rw [List.eq_of_mem_replicate mem]
    simp

end Step

end LogicCapture
