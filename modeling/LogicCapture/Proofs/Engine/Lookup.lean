import LogicCapture.Proofs.Image.Layout
import LogicCapture.Proofs.Image.WordBits

/-!
# What the engine makes of its table words

The trigger engine has no notion of patterns or steps. It looks up bits in its
table words: for every pattern one bit per pair of channels, and with the
matches of all patterns one bit of the combiner word. `Engine` is that lookup on
a bare list of words. `Program.engine_decides_as_program` says that on the words
of a compiled program the lookups give what the program asks for: in an active
slot pattern by pattern what its symbols accept and the step's combination of
these matches, and in every slot behind the last active one a pass.
-/

namespace LogicCapture

/-! ## Lookups -/

/-- A trigger engine with its table words. -/
structure Engine where
  geometry : Geometry
  words : List UInt32

namespace Engine

/-- Bit `bit` of the word at `place`; a word that is not there has none set. -/
def bitAt (e : Engine) (place bit : Nat) : Bool :=
  e.words[place]?.any (·.toNat.testBit bit)

/-- What slot `slot` finds for a pattern when the bus goes from `previous` to
`current`: the answers of all pairs of channels together. An odd pattern has its
tables in the upper halves of the words. -/
def matched (e : Engine) (slot : Nat) (previous current : Nat → Bool) (pattern : Nat) : Bool :=
  (List.range (e.geometry.channels / 2)).all fun pair =>
    e.bitAt (e.geometry.matcherIndex slot pair (pattern / 2))
      (16 * (pattern % 2) + address [previous (2 * pair + 1), current (2 * pair + 1),
        previous (2 * pair), current (2 * pair)])

/-- Whether slot `slot` is passed: the combiner bit at the number whose bits are
the matches of the patterns. -/
def passed (e : Engine) (slot : Nat) (previous current : Nat → Bool) : Bool :=
  e.bitAt (e.geometry.combinerIndex slot)
    (bitsBelow e.geometry.patternSlots (e.matched slot previous current))

end Engine

/-- The engine that a program is loaded into. -/
def Program.engine (p : Program) : Engine := ⟨p.geometry, p.compile.words⟩

@[simp] theorem Program.engine_geometry (p : Program) : p.engine.geometry = p.geometry := rfl

@[simp] theorem Program.engine_words (p : Program) : p.engine.words = p.compile.words := rfl

/-- Every channel of the pattern accepts how its level went. -/
def Pattern.Accepts (p : Pattern) (previous current : Nat → Bool) : Prop :=
  ∀ channel symbol, p.channel? channel = some symbol →
    symbol.accepts (previous channel) (current channel) = true

/-- The polarities' terms for the given matches, combined one after the other
from the identity of the operation. -/
def Step.combination (s : Step) (matched : Nat → Bool) : Bool :=
  (s.polarities.zipIdx).foldl
    (fun combined (polarity, index) =>
      s.operation.combine combined (polarity.term s.operation (matched index)))
    s.operation.identity

theorem Operation.resultFrom_eq_foldl (op : Operation) (matched : Nat → Bool)
    (polarities : List Polarity) (index : Nat) (combined : Bool) :
    op.resultFrom matched polarities index combined =
      (polarities.zipIdx index).foldl
        (fun combined (polarity, index) => op.combine combined (polarity.term op (matched index)))
        combined := by
  induction polarities generalizing index combined with
  | nil => rfl
  | cons polarity rest ih =>
    rw [Operation.resultFrom, List.zipIdx_cons, List.foldl_cons]
    exact ih (index + 1) _

theorem Step.combination_eq_result (s : Step) (matched : Nat → Bool) :
    s.combination matched = s.operation.result s.polarities matched :=
  (s.operation.resultFrom_eq_foldl matched s.polarities 0 s.operation.identity).symm

/-! ## The lookups on a compiled program -/

namespace Program

variable (p : Program) (previous current : Nat → Bool)

theorem lt_stepSlots_of_slot {p : Program} {s : Nat} {step : Step}
    (slotAt : p.slots[s]? = some step) : s < p.geometry.stepSlots := by
  rw [← p.length_slots]
  exact (List.getElem?_eq_some_iff.1 slotAt).1

/-- The engine finds a match exactly when every channel of the slot's pattern
accepts. -/
theorem matched_iff_accepts {s : Nat} {step : Step} (slotAt : p.slots[s]? = some step)
    {k : Nat} {c : Condition} (conditionAt : step.conditions[k]? = some c) :
    p.engine.matched (p.geometry.stepSlots - 1 - s) previous current k = true ↔
      c.pattern.Accepts previous current := by
  have within : s < p.geometry.stepSlots := lt_stepSlots_of_slot slotAt
  have fits : step.Fits p.geometry := p.slots_fit step (List.mem_of_getElem? slotAt)
  have width : c.pattern.width = p.geometry.channels :=
    fits.2 c (List.mem_of_getElem? conditionAt)
  have kLt : k < p.geometry.patternSlots := by
    rw [← fits.1]
    exact (List.getElem?_eq_some_iff.1 conditionAt).1
  have coupleLt : k / 2 < p.geometry.patternSlots / 2 := by
    rcases p.geometry.patternSlots_eq with two | four <;> omega
  -- the word of one pair answers for the two channels of that pair
  have answer : ∀ pair < p.geometry.channels / 2, ∃ upper lower,
      c.pattern.channel? (2 * pair + 1) = some upper ∧
      c.pattern.channel? (2 * pair) = some lower ∧
      p.engine.bitAt (p.geometry.matcherIndex (p.geometry.stepSlots - 1 - s) pair (k / 2))
        (16 * (k % 2) + address [previous (2 * pair + 1), current (2 * pair + 1),
          previous (2 * pair), current (2 * pair)]) =
        (upper.accepts (previous (2 * pair + 1)) (current (2 * pair + 1)) &&
          lower.accepts (previous (2 * pair)) (current (2 * pair))) := by
    intro pair pairLt
    obtain ⟨word, upper, lower, made, upperAt, lowerAt, bit⟩ :=
      Step.testBit_matcherWord fits conditionAt pairLt
    refine ⟨upper, lower, upperAt, lowerAt, ?_⟩
    rw [Engine.bitAt, engine_words, p.getElem?_matcherIndex within pairLt coupleLt, slotAt,
      Option.bind_some, made, Option.any_some, bit]
  rw [Engine.matched, List.all_eq_true]
  constructor
  · intro all channel symbol symbolAt
    have channelLt : channel < p.geometry.channels := by
      rw [← width]
      exact Pattern.isSome_channel?.1 (Option.isSome_iff_exists.2 ⟨symbol, symbolAt⟩)
    have even := p.geometry.channels_even
    obtain ⟨upper, lower, upperAt, lowerAt, bit⟩ := answer (channel / 2) (by omega)
    have pairLt : channel / 2 < p.geometry.channels / 2 := by omega
    have both := all (channel / 2) (List.mem_range.2 pairLt)
    rw [engine_geometry, bit, Bool.and_eq_true] at both
    rcases Nat.mod_two_eq_zero_or_one channel with isLower | isUpper
    · have place : channel = 2 * (channel / 2) := by omega
      rw [place] at symbolAt ⊢
      rw [lowerAt] at symbolAt
      cases symbolAt
      exact both.2
    · have place : channel = 2 * (channel / 2) + 1 := by omega
      rw [place] at symbolAt ⊢
      rw [upperAt] at symbolAt
      cases symbolAt
      exact both.1
  · intro accepts pair mem
    obtain ⟨upper, lower, upperAt, lowerAt, bit⟩ := answer pair (List.mem_range.1 mem)
    rw [engine_geometry, bit, Bool.and_eq_true]
    exact ⟨accepts _ upper upperAt, accepts _ lower lowerAt⟩

/-- The engine passes a slot exactly when the step's combination of the matches
says so. -/
theorem passed_eq_combination {s : Nat} {step : Step} (slotAt : p.slots[s]? = some step) :
    p.engine.passed (p.geometry.stepSlots - 1 - s) previous current =
      step.combination (p.engine.matched (p.geometry.stepSlots - 1 - s) previous current) := by
  have within : s < p.geometry.stepSlots := lt_stepSlots_of_slot slotAt
  have length : step.conditions.length = p.geometry.patternSlots :=
    (p.slots_fit step (List.mem_of_getElem? slotAt)).1
  have few : step.conditions.length ≤ 5 := by
    rcases p.geometry.patternSlots_eq with two | four <;> omega
  obtain ⟨word, made⟩ := Option.isSome_iff_exists.1 (Step.isSome_combinerWord? few)
  rw [Engine.passed, Engine.bitAt, engine_geometry, engine_words, p.getElem?_combinerIndex within,
    slotAt, Option.bind_some, made, Option.any_some, ← length, Step.testBit_combinerWord made,
    Step.combination_eq_result]

end Program

/-! ## Neutral steps -/

namespace Step

variable (g : Geometry)

theorem getElem?_neutral {k : Nat} {c : Condition}
    (conditionAt : (neutral g).conditions[k]? = some c) : c = ⟨.free g.channels, .normal⟩ :=
  List.eq_of_mem_replicate (List.mem_of_getElem? conditionAt)

theorem free_accepts (channels : Nat) (previous current : Nat → Bool) :
    (Pattern.free channels).Accepts previous current := by
  intro channel symbol symbolAt
  have mem : symbol ∈ List.replicate channels Symbol.any :=
    List.mem_reverse.1 (List.mem_of_getElem? symbolAt)
  rw [List.eq_of_mem_replicate mem]
  rfl

/-- The neutral step is passed when all its patterns match. -/
theorem combination_neutral {matched : Nat → Bool} (all : ∀ k < g.patternSlots, matched k = true) :
    (neutral g).combination matched = true := by
  have same : ∀ i < (neutral g).polarities.length, matched i = (fun _ => true) i :=
    fun i lt => all i (by simpa [neutral, polarities] using lt)
  rw [combination_eq_result, Operation.result_congr _ same]
  rcases g.patternSlots_eq with two | four
  · rw [neutral, two]
    rfl
  · rw [neutral, four]
    rfl

end Step

/-! ## The program's meaning -/

namespace Program

/-- On the words of a compiled program, an active slot finds a match for exactly
the patterns whose symbols all accept, and is passed as the operation combines
the terms of these matches. A slot behind the last active one matches always and
is always passed. -/
theorem engine_decides_as_program (p : Program) (previous current : Nat → Bool) {s : Nat}
    (within : s < p.steps.length) :
    let matched := p.engine.matched (p.geometry.stepSlots - 1 - s) previous current
    let passed := p.engine.passed (p.geometry.stepSlots - 1 - s) previous current
    (s ≤ p.last →
      (∀ k < p.geometry.patternSlots, ∃ c, p.steps[s].conditions[k]? = some c ∧
        (matched k = true ↔ c.pattern.Accepts previous current)) ∧
      passed = p.steps[s].combination matched) ∧
    (p.last < s → (∀ k < p.geometry.patternSlots, matched k = true) ∧ passed = true) := by
  intro matched passed
  constructor
  · intro active
    have slotAt : p.slots[s]? = some p.steps[s] := by
      rw [p.getElem?_slots_of_le active, List.getElem?_eq_getElem within]
    have length := (p.steps_fit _ (List.getElem_mem within)).1
    refine ⟨fun k lt => ?_, p.passed_eq_combination previous current slotAt⟩
    have conditionAt : p.steps[s].conditions[k]? = some p.steps[s].conditions[k] :=
      List.getElem?_eq_getElem (by omega)
    exact ⟨_, conditionAt, p.matched_iff_accepts previous current slotAt conditionAt⟩
  · intro inactive
    have slotAt : p.slots[s]? = some (Step.neutral p.geometry) :=
      p.getElem?_slots_of_lt inactive (p.steps_length ▸ within)
    have all : ∀ k < p.geometry.patternSlots, matched k = true := by
      intro k lt
      have kLt : k < (Step.neutral p.geometry).conditions.length := by
        simpa [Step.neutral] using lt
      have conditionAt := List.getElem?_eq_getElem kLt
      rw [p.matched_iff_accepts previous current slotAt conditionAt,
        Step.getElem?_neutral p.geometry conditionAt]
      exact Step.free_accepts p.geometry.channels previous current
    refine ⟨all, ?_⟩
    have decided := p.passed_eq_combination previous current slotAt
    exact decided.trans (Step.combination_neutral p.geometry all)

/-- Four channels: first a rising edge on channel 0, then no falling edge on
channel 3 or a low channel 1. The third slot stays free. -/
def edges : Program where
  geometry := ⟨⟨4, 3, 2, 16⟩, by decide⟩
  steps :=
    [{ conditions := [⟨⟨[.any, .any, .any, .rising]⟩, .normal⟩, ⟨.free 4, .disabled⟩] },
      { conditions := [⟨⟨[.falling, .any, .any, .any]⟩, .inverted⟩,
          ⟨⟨[.any, .any, .low, .any]⟩, .normal⟩]
        operation := .disj },
      Step.neutral ⟨⟨4, 3, 2, 16⟩, by decide⟩]
  last := 1
  settings := .standard
  steps_length := rfl
  steps_fit := by decide
  last_lt := by decide

/-- Its second step is decided by slot 1: channel 3 falls and channel 1 is high,
so neither term holds. -/
theorem engine_decides_as_program_edges :
    let falling : Nat → Bool := fun channel => channel == 3 || channel == 1
    let fallen : Nat → Bool := fun channel => channel == 1
    1 < edges.steps.length ∧ 1 ≤ edges.last ∧
      edges.engine.matched 1 falling fallen 0 = true ∧
      edges.engine.passed 1 falling fallen =
        edges.steps[1].combination (edges.engine.matched 1 falling fallen) ∧
      2 < edges.steps.length ∧ edges.last < 2 ∧ edges.engine.passed 0 falling fallen = true := by
  intro falling fallen
  have second := (edges.engine_decides_as_program falling fallen (s := 1) (by decide)).1 (by decide)
  have third := (edges.engine_decides_as_program falling fallen (s := 2) (by decide)).2 (by decide)
  refine ⟨by decide, by decide, ?_, second.2, by decide, by decide, third.2⟩
  obtain ⟨c, conditionAt, matched⟩ := second.1 0 (by decide)
  cases conditionAt
  refine matched.2 fun channel symbol symbolAt => ?_
  match channel with
  | 0 | 1 | 2 | 3 =>
    cases symbolAt
    rfl
  | channel + 4 => cases symbolAt

end Program

end LogicCapture
