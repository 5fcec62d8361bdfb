import LogicCapture.Geometry

/-!
What can be wrong with a trigger program, from a single letter up to the shape
of the engine it is meant for.
-/

namespace LogicCapture

inductive TriggerError where
  | invalidSymbol (letter : Char)
  | patternTooWide (text : String) (channels : Nat)
  | noSuchPattern (index slots : Nat)
  | noSuchStep (index slots : Nat)
  | invalidGeometry (shape : Shape) (fault : Shape.Fault)
  /-- A step or image made for another engine. -/
  | geometryMismatch
  | noSteps
deriving DecidableEq

def TriggerError.message : TriggerError → String
  | invalidSymbol letter =>
    s!"Invalid trigger symbol '{letter}', expected one of X, H, 1, L, 0, R, F, C"
  | patternTooWide text channels =>
    s!"Pattern '{text}' is wider than the {channels}-channel sample bus"
  | noSuchPattern index slots =>
    s!"Pattern index {index} out of range, a step has {slots} patterns"
  | noSuchStep index slots =>
    s!"Step index {index} out of range, the trigger sequence has {slots} steps"
  | invalidGeometry shape fault =>
    s!"Invalid analyser geometry {shape.text}: {fault.reason}"
  | geometryMismatch => "Trigger step does not fit the analyser geometry"
  | noSteps => "A trigger program needs at least one step"

/-- The geometry of `shape`, with the fault as a trigger error. -/
def Geometry.make (shape : Shape) : Except TriggerError Geometry :=
  (Geometry.ofShape shape).mapError (.invalidGeometry shape)

end LogicCapture
