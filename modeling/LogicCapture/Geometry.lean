/-!
The shape of a trigger engine. `Shape` holds the four numbers that a device
reports or a user asks for; `Geometry` is a shape that the engine can be built
with, so every geometry has an even number of channels and a bounded number of
steps and patterns. The table words of an engine lie in four regions, one
behind the other; their sizes follow from the geometry.
-/

namespace LogicCapture

/-! ## Shapes and their faults -/

/-- Dimensions of a trigger engine, not yet known to make sense. -/
structure Shape where
  /-- Channels on the sample bus. -/
  channels : Nat
  /-- Slots in the trigger sequence. -/
  stepSlots : Nat
  /-- Patterns compared in every step. -/
  patternSlots : Nat
  /-- Width of the match counters. -/
  counterBits : Nat
deriving DecidableEq

/-- The first dimension of a shape that no engine has. -/
inductive Shape.Fault where
  | channels
  | stepSlots
  | patternSlots
  | counterBits
deriving DecidableEq

/-- What the dimension would have to be. -/
def Shape.Fault.reason : Shape.Fault → String
  | .channels => "sample width must be even and between 2 and 32"
  | .stepSlots => "step count must be between 1 and 32"
  | .patternSlots => "pattern count must be 2 or 4"
  | .counterBits => "match counters must be 16 bits wide"

/-- Checks the dimensions in order: channels, steps, patterns, counters. -/
def Shape.fault? (s : Shape) : Option Shape.Fault :=
  if s.channels < 2 ∨ 32 < s.channels ∨ s.channels % 2 ≠ 0 then some .channels
  else if s.stepSlots < 1 ∨ 32 < s.stepSlots then some .stepSlots
  else if s.patternSlots ≠ 2 ∧ s.patternSlots ≠ 4 then some .patternSlots
  else if s.counterBits ≠ 16 then some .counterBits
  else none

/-- Dimensions named one by one, as error and log texts show them. -/
def Shape.text (s : Shape) : String :=
  s!"AnalyserGeometry \x7b sample_width: {s.channels}, max_trigger_steps: {s.stepSlots}, " ++
    s!"max_trigger_patterns: {s.patternSlots}, match_counter_bits: {s.counterBits} \x7d"

theorem Shape.fault?_eq_none_iff (s : Shape) :
    s.fault? = none ↔
      (2 ≤ s.channels ∧ s.channels ≤ 32 ∧ s.channels % 2 = 0) ∧
      (1 ≤ s.stepSlots ∧ s.stepSlots ≤ 32) ∧
      (s.patternSlots = 2 ∨ s.patternSlots = 4) ∧ s.counterBits = 16 := by
  unfold Shape.fault?
  repeat' split
  all_goals simp only [reduceCtorEq, false_iff, true_iff]
  all_goals omega

/-! ## Geometries -/

/-- A shape without fault. -/
structure Geometry extends Shape where
  sound : toShape.fault? = none
deriving DecidableEq

namespace Geometry

/-- The geometry of `shape`, or the first thing that is wrong with it. -/
def ofShape (shape : Shape) : Except Shape.Fault Geometry :=
  match fault : shape.fault? with
  | some found => .error found
  | none => .ok ⟨shape, fault⟩

/-- The engine of the standard bitstream: sixteen channels and steps, two
patterns per step. -/
def standard : Geometry := ⟨⟨16, 16, 2, 16⟩, by decide⟩

variable (g : Geometry)

theorem channels_le : g.channels ≤ 32 := (g.fault?_eq_none_iff.1 g.sound).1.2.1

theorem channels_even : g.channels % 2 = 0 := (g.fault?_eq_none_iff.1 g.sound).1.2.2

theorem stepSlots_pos : 0 < g.stepSlots := (g.fault?_eq_none_iff.1 g.sound).2.1.1

theorem stepSlots_le : g.stepSlots ≤ 32 := (g.fault?_eq_none_iff.1 g.sound).2.1.2

theorem patternSlots_eq : g.patternSlots = 2 ∨ g.patternSlots = 4 :=
  (g.fault?_eq_none_iff.1 g.sound).2.2.1

theorem counterBits_eq : g.counterBits = 16 := (g.fault?_eq_none_iff.1 g.sound).2.2.2

end Geometry

/-! ## Regions of table words -/

/-- A run of table words, from `start` up to but without `stop`. -/
structure Region where
  start : Nat
  stop : Nat
deriving DecidableEq

namespace Geometry

variable (g : Geometry)

/-- Matcher words of one step: each serves two channels of two patterns. -/
def wordsPerStep : Nat := g.patternSlots * g.channels / 4

/-- Pattern matchers, a block per step. -/
def matcherRegion : Region := ⟨0, g.stepSlots * g.wordsPerStep⟩

/-- Combiners, a word per step. -/
def combinerRegion : Region := ⟨g.matcherRegion.stop, g.matcherRegion.stop + g.stepSlots⟩

/-- Match counts, a word per counter bit. -/
def countRegion : Region := ⟨g.combinerRegion.stop, g.combinerRegion.stop + g.counterBits⟩

/-- Two flag words: the last active step and the contiguous steps. -/
def flagRegion : Region := ⟨g.countRegion.stop, g.countRegion.stop + 2⟩

/-- All table words of the engine. -/
def totalWords : Nat := g.flagRegion.stop

end Geometry

end LogicCapture
