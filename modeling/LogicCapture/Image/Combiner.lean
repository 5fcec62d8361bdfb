import LogicCapture.Image.Bits
import LogicCapture.Trigger.Step

/-!
Combiners. The combiner word of a step is the truth table of its result: bit
`v` answers for the match of every pattern, pattern `i` being bit `i` of `v`.
All values that the patterns can spell are gone through in order, and the bit of
each accepted one is set. A word has room for five patterns. A step with more
still has a word if it accepts nothing that would need a bit beyond the last
one: `Step.combinerWord?_eq_none_iff`.
-/

namespace LogicCapture.Step

/-- Whether the step is passed when exactly the patterns at the set bits of
`value` match; none if there are more patterns than bits. -/
def accepts? (s : Step) (value : UInt32) : Option Bool :=
  s.polarities.zipIdx.foldlM (fun combined (polarity, index) => do
    let matched := value &&& (← oneHot? index) != 0
    return s.operation.combine combined (polarity.term s.operation matched)) s.operation.identity

/-- Goes through `left` values from `value` on and adds the bits of the accepted
ones to the word; none if it has no such bit. -/
def collect? (s : Step) : (left value : Nat) → (word : UInt32) → Option UInt32
  | 0, _, word => some word
  | left + 1, value, word => do
    if ← s.accepts? (.ofNat value) then
      let bit ← oneHot? value
      s.collect? left (value + 1) (word ||| bit)
    else s.collect? left (value + 1) word

/-- The combiner word, unless the patterns or an accepted value are beyond what a
word can number. -/
def combinerWord? (s : Step) : Option UInt32 := do
  let values ← oneHot? s.conditions.length
  s.collect? values.toNat 0 0

/-! ## Accepted values -/

/-- The terms of patterns are combined as the result of the step is. -/
theorem foldlM_terms (op : Operation) (value : UInt32) {polarities : List Polarity} {index : Nat}
    (few : index + polarities.length ≤ 32) (combined : Bool) :
    (polarities.zipIdx index).foldlM (fun combined (polarity, index) => do
        let matched := value &&& (← oneHot? index) != 0
        return op.combine combined (polarity.term op matched)) combined =
      some (op.resultFrom value.toNat.testBit polarities index combined) := by
  induction polarities generalizing index combined with
  | nil => rfl
  | cons polarity rest ih =>
    rw [List.length_cons] at few
    have here : index < 32 := by omega
    rw [List.zipIdx_cons, List.foldlM_cons]
    dsimp only
    rw [oneHot?_of_lt here, Operation.resultFrom, ← and_oneHot_ne_zero value here,
      ← ih (by omega)]
    rfl

theorem accepts?_eq {s : Step} (few : s.conditions.length ≤ 32) {v : Nat} (lt : v < UInt32.size) :
    s.accepts? (.ofNat v) = some (s.operation.result s.polarities v.testBit) := by
  have short : 0 + s.polarities.length ≤ 32 := by simpa [polarities] using few
  rw [accepts?, foldlM_terms _ _ short, UInt32.toNat_ofNat_of_lt' lt, Operation.result]

/-- Values can be gone through unless an accepted one has no bit. -/
theorem collect?_eq_none_iff {s : Step} {accepted : Nat → Bool} {left value : Nat}
    (known : ∀ v, value ≤ v → v < value + left → s.accepts? (.ofNat v) = some (accepted v))
    (word : UInt32) : s.collect? left value word = none ↔
      ∃ v, value ≤ v ∧ v < value + left ∧ 32 ≤ v ∧ accepted v = true := by
  induction left generalizing value word with
  | zero =>
    refine iff_of_false (Option.some_ne_none _) ?_
    rintro ⟨v, from_value, below, -⟩
    omega
  | succ left ih =>
    have later := @ih (value + 1) fun v ge lt => known v (by omega) (by omega)
    -- the first value, or one behind it
    have split : (∃ v, value ≤ v ∧ v < value + (left + 1) ∧ 32 ≤ v ∧ accepted v = true) ↔
        32 ≤ value ∧ accepted value = true ∨
          ∃ v, value + 1 ≤ v ∧ v < value + 1 + left ∧ 32 ≤ v ∧ accepted v = true := by
      constructor
      · rintro ⟨v, ge, lt, large, set⟩
        rcases Nat.eq_or_lt_of_le ge with rfl | behind
        · exact .inl ⟨large, set⟩
        · exact .inr ⟨v, behind, by omega, large, set⟩
      · rintro (⟨large, set⟩ | ⟨v, ge, lt, large, set⟩)
        · exact ⟨value, Nat.le_refl _, by omega, large, set⟩
        · exact ⟨v, by omega, by omega, large, set⟩
    rw [collect?, known value (Nat.le_refl _) (by omega), split]
    cases set : accepted value with
    | false =>
      simp only [Bool.false_eq_true, and_false, false_or]
      exact later word
    | true =>
      rcases Nat.lt_or_ge value 32 with small | large
      · rw [oneHot?_of_lt small]
        simp only [Nat.not_le_of_lt small, false_and, false_or]
        exact later _
      · rw [oneHot?_of_le large]
        exact iff_of_true rfl (.inl ⟨large, rfl⟩)

/-- Which values the terms of the patterns accept, where there are so few that all
values are gone through. -/
theorem accepts?_values {s : Step} (few : s.conditions.length < 32) : ∀ v, 0 ≤ v →
    v < 0 + 1 <<< s.conditions.length →
      s.accepts? (.ofNat v) = some (s.operation.result s.polarities v.testBit) := by
  have room : 1 <<< s.conditions.length < UInt32.size := by
    rw [Nat.one_shiftLeft]
    exact Nat.pow_lt_pow_right (by decide) few
  exact fun v _ lt => accepts?_eq (Nat.le_of_lt few) (by omega)

/-- There is no combiner word for more patterns than a word has bits, nor for an
accepted value that it has no bit for. -/
theorem combinerWord?_eq_none_iff {s : Step} : s.combinerWord? = none ↔
    32 ≤ s.conditions.length ∨ ∃ v, v < 1 <<< s.conditions.length ∧ 32 ≤ v ∧
      s.operation.result s.polarities v.testBit = true := by
  rcases Nat.lt_or_ge s.conditions.length 32 with few | many
  · rw [combinerWord?, oneHot?_of_lt few]
    change s.collect? (1 <<< UInt32.ofNat _).toNat 0 0 = none ↔ _
    rw [toNat_oneHot few, collect?_eq_none_iff (accepts?_values few)]
    simp only [Nat.zero_le, true_and, Nat.zero_add, Nat.not_le_of_lt few, false_or]
  · rw [combinerWord?, oneHot?_of_le many]
    exact iff_of_true rfl (.inl many)

/-- With up to five patterns a step has a combiner word. -/
theorem isSome_combinerWord? {s : Step} (few : s.conditions.length ≤ 5) :
    s.combinerWord?.isSome := by
  rw [Option.isSome_iff_ne_none]
  intro missing
  have room : 1 <<< s.conditions.length ≤ 1 <<< 5 := by
    rw [Nat.one_shiftLeft, Nat.one_shiftLeft]
    exact Nat.pow_le_pow_right (by decide) few
  rcases combinerWord?_eq_none_iff.1 missing with many | ⟨v, below, large, -⟩
  · omega
  · omega

end LogicCapture.Step
