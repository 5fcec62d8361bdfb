import LogicCapture.Trigger.Error
import LogicCapture.Trigger.Symbol

/-!
Patterns: one symbol for every channel of the sample bus. A pattern is written
with the highest channel first, so channel 0 is the rightmost letter. Reading
one pads short text with X on the left; `Pattern.parse_text` says that reading
what was written gives the pattern back.
-/

namespace LogicCapture

/-- One symbol per channel, highest channel first. -/
structure Pattern where
  symbols : List Symbol
deriving DecidableEq

namespace Pattern

/-- Reads every letter; the first that is no symbol is the error. -/
def parseLetters : List Char → Except TriggerError (List Symbol)
  | [] => .ok []
  | letter :: rest =>
    match Symbol.ofChar? letter with
    | none => .error (.invalidSymbol letter)
    | some symbol => (parseLetters rest).map (symbol :: ·)

/-- Reads a pattern for `channels` channels. A wrong letter is reported before
a text that is too wide. -/
def parse (text : String) (channels : Nat) : Except TriggerError Pattern := do
  let given ← parseLetters text.toList
  if channels < given.length then
    throw (.patternTooWide text channels)
  return ⟨List.replicate (channels - given.length) .any ++ given⟩

/-- More channels than this cannot be numbered, so no pattern has them. -/
def mostChannels : Nat := (1 <<< 63) - 1

/-- Reads a pattern as `parse` does, but makes none that is too wide to exist.
A wrong letter is reported all the same. -/
def parseWithin (text : String) (channels : Nat) : Except TriggerError (Option Pattern) :=
  if channels ≤ mostChannels then (parse text channels).map some
  else (parseLetters text.toList).map fun _ => none

/-- The pattern that every pair of samples matches. -/
def free (channels : Nat) : Pattern := ⟨List.replicate channels .any⟩

/-- That pattern, unless it is too wide to exist. -/
def freeWithin (channels : Nat) : Option Pattern :=
  if channels ≤ mostChannels then some (free channels) else none

def width (p : Pattern) : Nat := p.symbols.length

/-- The symbol of a channel, if the pattern reaches that far. -/
def channel? (p : Pattern) (channel : Nat) : Option Symbol := p.symbols.reverse[channel]?

def text (p : Pattern) : String := String.ofList (p.symbols.map Symbol.letter)

@[simp] theorem width_free (channels : Nat) : (free channels).width = channels := by
  simp [free, width]

theorem isSome_channel? {p : Pattern} {channel : Nat} :
    (p.channel? channel).isSome ↔ channel < p.width := by
  simp [channel?, width]

/-! ## Reading what was written -/

theorem parseLetters_letters (symbols : List Symbol) :
    parseLetters (symbols.map Symbol.letter) = .ok symbols := by
  induction symbols with
  | nil => rfl
  | cons s rest ih => simp [parseLetters, ih, Except.map]

theorem parse_text (p : Pattern) : parse p.text p.width = .ok p := by
  simp [parse, text, width, parseLetters_letters, bind, Except.bind, pure, Except.pure]

end Pattern

end LogicCapture
