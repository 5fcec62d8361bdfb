import LogicCapture.Trigger.Step

/-!
Recipes: a step described piece by piece. A recipe is a list of instructions
that each set one thing; a later one overrides an earlier one. Patterns are
read when the recipe is followed, so an instruction that cannot be carried out
spoils the recipe even if a later one would have overridden it.
-/

namespace LogicCapture

/-- One instruction about a step. -/
inductive Instruction where
  /-- Put the pattern that `text` spells into slot `index`. -/
  | condition (index : Nat) (text : String) (polarity : Polarity)
  | operation (operation : Operation)
  | contiguous
  | times (count : UInt16)

namespace Instruction

/-- Require a match of slot `index`. -/
def requires (index : Nat) (text : String) : Instruction := .condition index text .normal

/-- Require that slot `index` does not match. -/
def excludes (index : Nat) (text : String) : Instruction := .condition index text .inverted

/-- Require all terms. -/
def all : Instruction := .operation .conj

/-- Require any term. -/
def any : Instruction := .operation .disj

end Instruction

namespace Step

/-- The step that a recipe starts from: every slot disabled, one match. -/
def blank (g : Geometry) : Step :=
  { conditions := List.replicate g.patternSlots ⟨.free g.channels, .disabled⟩, count := 1 }

/-- Carries out one instruction. A slot that does not exist is reported before
a text that is no pattern. -/
def follow (g : Geometry) (s : Step) : Instruction → Except TriggerError Step
  | .condition index text polarity => do
    if s.conditions.length ≤ index then
      throw (.noSuchPattern index s.conditions.length)
    let pattern ← Pattern.parse text g.channels
    return { s with conditions := s.conditions.set index ⟨pattern, polarity⟩ }
  | .operation operation => .ok { s with operation }
  | .contiguous => .ok { s with contiguous := true }
  | .times count => .ok { s with count }

/-- The step that a recipe describes. -/
def build (g : Geometry) (recipe : List Instruction) : Except TriggerError Step :=
  recipe.foldlM (follow g) (blank g)

end Step

end LogicCapture
