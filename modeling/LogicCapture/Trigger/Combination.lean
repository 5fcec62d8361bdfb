/-!
How the matches of a step's patterns combine into the step's result. An
operation folds the terms of the patterns from its identity; a polarity turns
the match of one pattern into its term. A disabled pattern contributes the
identity, so it never decides the result.
-/

namespace LogicCapture

/-! ## Operations -/

/-- How the terms of a step combine. -/
inductive Operation where
  /-- All terms have to hold. -/
  | conj
  /-- One term is enough. -/
  | disj
deriving DecidableEq, Inhabited

namespace Operation

def name : Operation → String
  | conj => "And"
  | disj => "Or"

/-- The term that leaves a combination as it is. -/
def identity : Operation → Bool
  | conj => true
  | disj => false

/-- Adds one term to the terms combined so far. -/
def combine : Operation → Bool → Bool → Bool
  | conj, combined, term => combined && term
  | disj, combined, term => combined || term

end Operation

/-! ## Polarities -/

/-- What the match of one pattern counts for. -/
inductive Polarity where
  /-- True when the pattern matches. -/
  | normal
  /-- True when the pattern does not match. -/
  | inverted
  /-- Nothing, whether it matches or not. -/
  | disabled
deriving DecidableEq, Inhabited

namespace Polarity

def name : Polarity → String
  | normal => "Normal"
  | inverted => "Inverted"
  | disabled => "Disabled"

/-- The term that a pattern contributes under an operation. -/
def term (op : Operation) (matched : Bool) : Polarity → Bool
  | normal => matched
  | inverted => !matched
  | disabled => op.identity

end Polarity

/-! ## The result of a step -/

/-- Combines the terms of patterns whose matches `matched` tells by their
index; `index` is that of the first pattern left. -/
def Operation.resultFrom (op : Operation) (matched : Nat → Bool) :
    List Polarity → (index : Nat) → (combined : Bool) → Bool
  | [], _, combined => combined
  | polarity :: rest, index, combined =>
    op.resultFrom matched rest (index + 1)
      (op.combine combined (polarity.term op (matched index)))

/-- The result of a step with these polarities when pattern `i` matches exactly
if `matched i`. -/
def Operation.result (op : Operation) (polarities : List Polarity) (matched : Nat → Bool) :
    Bool :=
  op.resultFrom matched polarities 0 op.identity

end LogicCapture
