/-!
Trigger symbols: what a single channel has to do between one sample and the
next. A symbol is written as one letter; reading it ignores the letter's case,
and the digits 1 and 0 stand for high and low.
-/

namespace LogicCapture

/-- Condition on one channel of the sample bus. -/
inductive Symbol where
  /-- Whatever the channel does. -/
  | any
  | high
  | low
  | rising
  | falling
  /-- Any change of level. -/
  | change
deriving DecidableEq

namespace Symbol

/-- Place of the symbol in the order X, H, L, R, F, C. -/
def index : Symbol → Nat
  | any => 0
  | high => 1
  | low => 2
  | rising => 3
  | falling => 4
  | change => 5

theorem index_lt (s : Symbol) : s.index < 6 := by
  cases s <;> decide

/-- The letter that the symbol is written as. -/
def letter : Symbol → Char
  | any => 'X'
  | high => 'H'
  | low => 'L'
  | rising => 'R'
  | falling => 'F'
  | change => 'C'

/-- Reads a symbol; only the 26 basic letters lose their case. -/
def ofChar? (c : Char) : Option Symbol :=
  match c.toUpper with
  | 'X' => some any
  | 'H' | '1' => some high
  | 'L' | '0' => some low
  | 'R' => some rising
  | 'F' => some falling
  | 'C' => some change
  | _ => none

/-- Whether a channel that went from `previous` to `current` satisfies the
symbol. -/
def accepts (previous current : Bool) : Symbol → Bool
  | any => true
  | high => current
  | low => !current
  | rising => !previous && current
  | falling => previous && !current
  | change => previous != current

@[simp] theorem ofChar?_letter (s : Symbol) : ofChar? s.letter = some s := by
  cases s <;> decide

end Symbol

end LogicCapture
