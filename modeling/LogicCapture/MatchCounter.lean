/-!
The match counter of the trigger engine. It is no binary counter but a shift
register: every match moves it to its next state, so a count is compared by the
state that is reached after that many matches. The first match is the seed
itself. State 0 would stay where it is and is never reached.
-/

namespace LogicCapture.MatchCounter

/-- State of the counter at the first match. -/
def seed : UInt16 := 1

/-- Bits toggled when a set bit is shifted out. -/
def toggles : UInt16 := 0xB400

/-- Shifts right by one; a set bit shifted out toggles the feedback bits. -/
def next (state : UInt16) : UInt16 :=
  if state &&& 1 = 1 then (state >>> 1) ^^^ toggles else state >>> 1

/-- Follows `n` matches from `state`. -/
def advance : Nat → UInt16 → UInt16
  | 0, state => state
  | n + 1, state => advance n (next state)

/-- State number `n` of the sequence that starts with the seed. -/
def state (n : Nat) : UInt16 := advance n seed

/-- The next `n` states from `state` on. -/
def run : (n : Nat) → (state : UInt16) → List UInt16
  | 0, _ => []
  | n + 1, state => state :: run n (next state)

theorem advance_succ (n : Nat) (state : UInt16) :
    advance (n + 1) state = next (advance n state) := by
  induction n generalizing state with
  | zero => rfl
  | succ n ih => exact ih (next state)

/-- The states are those that the counter goes through one by one. -/
theorem getElem?_run (n : Nat) (state : UInt16) (i : Nat) :
    (run n state)[i]? = if i < n then some (advance i state) else none := by
  induction n generalizing state i with
  | zero => simp [run]
  | succ n ih =>
    cases i with
    | zero => simp [run, advance]
    | succ i => simp [run, ih, advance]

/-- The state that stands for `count` matches; none at all stands for one. -/
def encode (count : UInt16) : UInt16 := state (max count.toNat 1 - 1)

end LogicCapture.MatchCounter
