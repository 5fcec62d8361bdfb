import LogicCapture.Image.Combiner
import LogicCapture.Image.Matcher
import Mathlib.Algebra.Group.Nat.Defs

/-!
# The bits of table words

What single bits of the compiled words say. `bitsBelow n f` is the number whose bit
`i` is `f i` for every `i` below `n`. A table over levels is looked up at the number
that the levels spell (`address`): the entries of the table answer for the symbols
that they stand for (`pairTable_eq`), and joining two tables in a word keeps both, the
second one sixteen places up. `Step.testBit_combinerWord` is the same for combiners:
their word answers for every choice of matches that the patterns can make.
-/

namespace LogicCapture

/-- The number that levels spell, most significant first. -/
def address (levels : List Bool) : Nat := levels.foldl (fun n level => 2 * n + level.toNat) 0

/-! ## Numbers from their bits -/

/-- The number whose bits below `n` are given by `f`, and no others. -/
def bitsBelow : Nat → (Nat → Bool) → Nat
  | 0, _ => 0
  | n + 1, f => bitsBelow n f + if f n then 1 <<< n else 0

theorem bitsBelow_lt (n : Nat) (f : Nat → Bool) : bitsBelow n f < 1 <<< n := by
  rw [Nat.one_shiftLeft]
  induction n with
  | zero => simp [bitsBelow]
  | succ n ih =>
    simp only [bitsBelow, Nat.one_shiftLeft, Nat.pow_succ]
    split <;> omega

theorem testBit_bitsBelow (n : Nat) (f : Nat → Bool) (i : Nat) :
    (bitsBelow n f).testBit i = (decide (i < n) && f i) := by
  induction n with
  | zero => simp [bitsBelow]
  | succ n ih =>
    have below := bitsBelow_lt n f
    rw [Nat.one_shiftLeft] at below
    simp only [bitsBelow, Nat.one_shiftLeft]
    by_cases set : f n
    · simp only [set, if_true]
      rw [Nat.add_comm]
      rcases Nat.lt_trichotomy i n with lt | eq | gt
      · rw [Nat.testBit_two_pow_add_gt lt, ih]
        simp [lt, Nat.lt_succ_of_lt lt]
      · subst eq
        rw [Nat.testBit_two_pow_add_eq, Nat.testBit_lt_two_pow below]
        simp [set]
      · have small : 2 ^ n + bitsBelow n f < 2 ^ i :=
          Nat.lt_of_lt_of_le (show _ < 2 ^ (n + 1) by rw [Nat.pow_succ]; omega)
            (Nat.pow_le_pow_right (by decide) gt)
        rw [Nat.testBit_lt_two_pow small]
        simp [show ¬ i < n + 1 by omega]
    · simp only [set]
      rw [if_neg (by decide), Nat.add_zero, ih]
      rcases Nat.lt_trichotomy i n with lt | eq | gt
      · simp [lt, Nat.lt_succ_of_lt lt]
      · subst eq
        simp [set]
      · simp [show ¬ i < n by omega, show ¬ i < n + 1 by omega]

theorem bitsBelow_congr {n : Nat} {f g : Nat → Bool} (same : ∀ i < n, f i = g i) :
    bitsBelow n f = bitsBelow n g := by
  apply Nat.eq_of_testBit_eq
  intro i
  rw [testBit_bitsBelow, testBit_bitsBelow]
  rcases Nat.lt_or_ge i n with lt | ge
  · rw [same i lt]
  · rw [decide_eq_false (Nat.not_lt_of_le ge), Bool.false_and, Bool.false_and]

theorem bitsBelow_false (n : Nat) : bitsBelow n (fun _ => false) = 0 := by
  apply Nat.eq_of_testBit_eq
  intro i
  rw [testBit_bitsBelow, Bool.and_false, Nat.zero_testBit]

/-- A state of sixteen bits is the number of its bits. -/
theorem bitsBelow_testBit (state : UInt16) : bitsBelow 16 state.toNat.testBit = state.toNat := by
  apply Nat.eq_of_testBit_eq
  intro i
  rw [testBit_bitsBelow]
  rcases Nat.lt_or_ge i 16 with lt | ge
  · rw [decide_eq_true lt, Bool.true_and]
  · have below : state.toNat < 2 ^ i :=
      Nat.lt_of_lt_of_le state.toNat_lt (Nat.pow_le_pow_right (by decide) ge)
    rw [Nat.testBit_lt_two_pow below, Bool.and_false]

/-! ## Matcher words -/

/-- The tables hold what the symbols accept. -/
theorem pairTable_eq (upper lower : Symbol) : pairTable upper lower =
    UInt16.ofNat (bitsBelow 16 fun i =>
      upper.accepts (i.testBit 3) (i.testBit 2) && lower.accepts (i.testBit 1) (i.testBit 0)) := by
  cases upper <;> cases lower <;> decide

/-- The table of two channels, looked up at the levels of both. -/
theorem testBit_pairTable (upper lower : Symbol) (p c q d : Bool) :
    (pairTable upper lower).toNat.testBit (address [p, c, q, d]) =
      (upper.accepts p c && lower.accepts q d) := by
  have below : ∀ f, bitsBelow 16 f < UInt16.size := fun f => bitsBelow_lt 16 f
  rw [pairTable_eq, UInt16.toNat_ofNat_of_lt' (below _), testBit_bitsBelow]
  cases p <;> cases c <;> cases q <;> cases d <;> rfl

theorem address_lt (p c q d : Bool) : address [p, c, q, d] < 16 := by
  cases p <;> cases c <;> cases q <;> cases d <;> decide

theorem toNat_joinTables (high low : UInt16) :
    (joinTables high low).toNat = 2 ^ 16 * high.toNat + low.toNat := by
  have highLt : high.toNat < 2 ^ 16 := high.toNat_lt_size
  have lowLt : low.toNat < 2 ^ 16 := low.toNat_lt_size
  have shifted : (high.toUInt32 <<< 16).toNat = 2 ^ 16 * high.toNat := by
    rw [UInt32.toNat_shiftLeft, UInt16.toNat_toUInt32, Nat.shiftLeft_eq]
    simp only [UInt32.reduceToNat, Nat.reduceMod, Nat.reducePow] at highLt ⊢
    omega
  rw [joinTables, UInt32.toNat_or, shifted, UInt16.toNat_toUInt32,
    Nat.two_pow_add_eq_or_of_lt lowLt]

/-- The lower half of a word is its second table. -/
theorem testBit_joinTables_low (high low : UInt16) {i : Nat} (lt : i < 16) :
    (joinTables high low).toNat.testBit i = low.toNat.testBit i := by
  rw [toNat_joinTables, Nat.testBit_two_pow_mul_add _ low.toNat_lt_size, if_pos lt]

/-- The upper half of a word is its first table. -/
theorem testBit_joinTables_high (high low : UInt16) (i : Nat) :
    (joinTables high low).toNat.testBit (16 + i) = high.toNat.testBit i := by
  rw [toNat_joinTables, Nat.testBit_two_pow_mul_add _ low.toNat_lt_size, if_neg (by omega),
    Nat.add_sub_cancel_left]

/-! ## Results and the matches they depend on -/

namespace Operation

/-- The result depends on the matches of the patterns with a term alone. -/
theorem resultFrom_congr_of_enabled (op : Operation) {matched other : Nat → Bool}
    {polarities : List Polarity} {index : Nat} {combined : Bool}
    (same : ∀ i polarity, polarities[i]? = some polarity → polarity ≠ .disabled →
      matched (index + i) = other (index + i)) :
    op.resultFrom matched polarities index combined =
      op.resultFrom other polarities index combined := by
  induction polarities generalizing index combined with
  | nil => rfl
  | cons polarity rest ih =>
    have own : polarity.term op (matched index) = polarity.term op (other index) := by
      by_cases disabled : polarity = .disabled
      · rw [disabled]
        rfl
      · exact congrArg (polarity.term op) (same 0 polarity rfl disabled)
    rw [resultFrom, resultFrom, own]
    refine ih fun i later at_i enabled => ?_
    rw [Nat.add_assoc, Nat.add_comm 1 i]
    exact same (i + 1) later at_i enabled

theorem resultFrom_congr (op : Operation) {matched other : Nat → Bool} {polarities : List Polarity}
    {index : Nat} {combined : Bool}
    (same : ∀ i, index ≤ i → i < index + polarities.length → matched i = other i) :
    op.resultFrom matched polarities index combined =
      op.resultFrom other polarities index combined := by
  refine op.resultFrom_congr_of_enabled fun i polarity polarityAt _ => ?_
  have lt := (List.getElem?_eq_some_iff.1 polarityAt).1
  exact same (index + i) (by omega) (by omega)

theorem result_congr_of_enabled (op : Operation) {matched other : Nat → Bool}
    {polarities : List Polarity}
    (same : ∀ i polarity, polarities[i]? = some polarity → polarity ≠ .disabled →
      matched i = other i) :
    op.result polarities matched = op.result polarities other := by
  refine op.resultFrom_congr_of_enabled fun i polarity polarityAt enabled => ?_
  rw [Nat.zero_add]
  exact same i polarity polarityAt enabled

theorem result_congr (op : Operation) {matched other : Nat → Bool} {polarities : List Polarity}
    (same : ∀ i < polarities.length, matched i = other i) :
    op.result polarities matched = op.result polarities other :=
  op.resultFrom_congr fun i _ lt => same i (by omega)

end Operation

namespace Step

/-! ## The tables of a step -/

variable {s : Step} {g : Geometry}

/-- The table of a condition for two channels is that of their two symbols. -/
theorem exists_halfWord (fits : s.Fits g) {pattern pair : Nat} {c : Condition}
    (conditionAt : s.conditions[pattern]? = some c) (pairLt : pair < g.channels / 2) :
    ∃ upper lower, c.pattern.channel? (2 * pair + 1) = some upper ∧
      c.pattern.channel? (2 * pair) = some lower ∧
      s.halfWord? (2 * pair + 1) pattern = some (pairTable upper lower) := by
  have width : c.pattern.width = g.channels := fits.2 c (List.mem_of_getElem? conditionAt)
  have upperIn : (c.pattern.channel? (2 * pair + 1)).isSome := Pattern.isSome_channel?.2 (by omega)
  have lowerIn : (c.pattern.channel? (2 * pair)).isSome := Pattern.isSome_channel?.2 (by omega)
  obtain ⟨upper, upperAt⟩ := Option.isSome_iff_exists.1 upperIn
  obtain ⟨lower, lowerAt⟩ := Option.isSome_iff_exists.1 lowerIn
  refine ⟨upper, lower, upperAt, lowerAt, ?_⟩
  simp [halfWord?, conditionAt, upperAt, lowerAt]

/-- The half that a pattern has in the matcher word of its couple, looked up at
the levels of a pair of channels, answers for the two symbols of the pattern. -/
theorem testBit_matcherWord (fits : s.Fits g) {pattern pair : Nat} {c : Condition}
    (conditionAt : s.conditions[pattern]? = some c) (pairLt : pair < g.channels / 2) :
    ∃ word upper lower, s.matcherWord? (2 * pair + 1, 2 * (pattern / 2) + 1) = some word ∧
      c.pattern.channel? (2 * pair + 1) = some upper ∧
      c.pattern.channel? (2 * pair) = some lower ∧
      ∀ p n q m, word.toNat.testBit (16 * (pattern % 2) + address [p, n, q, m]) =
        (upper.accepts p n && lower.accepts q m) := by
  have patternLt : pattern < s.conditions.length := (List.getElem?_eq_some_iff.1 conditionAt).1
  have evenPatterns : s.conditions.length % 2 = 0 := by
    rw [fits.1]
    rcases g.patternSlots_eq with two | four <;> omega
  obtain ⟨upper, lower, upperAt, lowerAt, table⟩ := exists_halfWord fits conditionAt pairLt
  rcases Nat.mod_two_eq_zero_or_one pattern with even | odd
  · -- an even pattern has the lower half, its neighbour above the upper one
    obtain ⟨u, l, -, -, other⟩ := exists_halfWord fits
      (List.getElem?_eq_getElem (show 2 * (pattern / 2) + 1 < s.conditions.length by omega)) pairLt
    have own : 2 * (pattern / 2) + 1 - 1 = pattern := by omega
    refine ⟨joinTables (pairTable u l) (pairTable upper lower), upper, lower, ?_, upperAt, lowerAt,
      fun p n q m => ?_⟩
    · simp [matcherWord?, other, own, table]
    · rw [even, Nat.mul_zero, Nat.zero_add, testBit_joinTables_low _ _ (address_lt p n q m),
        testBit_pairTable]
  · obtain ⟨u, l, -, -, other⟩ := exists_halfWord fits
      (List.getElem?_eq_getElem (show 2 * (pattern / 2) < s.conditions.length by omega)) pairLt
    have own : 2 * (pattern / 2) + 1 = pattern := by omega
    refine ⟨joinTables (pairTable upper lower) (pairTable u l), upper, lower, ?_, upperAt, lowerAt,
      fun p n q m => ?_⟩
    · simp only [matcherWord?, Nat.add_sub_cancel, other]
      simp [own, table]
    · rw [odd, Nat.mul_one, testBit_joinTables_high, testBit_pairTable]

/-! ## The combiner of a step -/

/-- The values gone through have their bits in the word if they are accepted; all other
bits are as before. -/
theorem testBit_of_collect? {s : Step} {accepted : Nat → Bool} {left value : Nat}
    {word made : UInt32}
    (known : ∀ v, value ≤ v → v < value + left → s.accepts? (.ofNat v) = some (accepted v))
    (collected : s.collect? left value word = some made) (i : Nat) :
    made.toNat.testBit i =
      (word.toNat.testBit i || (decide (value ≤ i ∧ i < value + left) && accepted i)) := by
  induction left generalizing value word with
  | zero =>
    cases collected
    have none_left : ¬ (value ≤ i ∧ i < value + 0) := by omega
    rw [decide_eq_false none_left, Bool.false_and, Bool.or_false]
  | succ left ih =>
    have later := @ih (value + 1)
    have known_later : ∀ v, value + 1 ≤ v → v < value + 1 + left →
        s.accepts? (.ofNat v) = some (accepted v) := fun v ge lt => known v (by omega) (by omega)
    have split : decide (value ≤ i ∧ i < value + (left + 1)) =
        (decide (i = value) || decide (value + 1 ≤ i ∧ i < value + 1 + left)) := by
      rw [Bool.eq_iff_iff]
      simp only [decide_eq_true_eq, Bool.or_eq_true]
      omega
    rw [collect?, known value (Nat.le_refl _) (by omega), Option.bind_eq_bind,
      Option.bind_some] at collected
    rw [split, Bool.and_or_distrib_right]
    cases set : accepted value with
    | false =>
      rw [set] at collected
      have own : (decide (i = value) && accepted i) = false := by
        by_cases here : i = value
        · rw [here, set, Bool.and_false]
        · rw [decide_eq_false here, Bool.false_and]
      rw [own, Bool.false_or]
      exact later known_later collected
    | true =>
      rw [set] at collected
      obtain ⟨bit, hot, rest⟩ := Option.bind_eq_some_iff.1 collected
      have small : value < 32 := isSome_oneHot?.1 (Option.isSome_of_eq_some hot)
      rw [oneHot?_of_lt small] at hot
      have own : (decide (i = value) && accepted i) = decide (value = i) := by
        by_cases here : i = value
        · rw [here, set, decide_eq_true rfl, Bool.and_true]
        · rw [decide_eq_false here, Bool.false_and, decide_eq_false (Ne.symm here)]
      rw [later known_later rest, ← Option.some.inj hot, UInt32.toNat_or, toNat_oneHot small,
        Nat.one_shiftLeft, Nat.testBit_or, Nat.testBit_two_pow, own, Bool.or_assoc]

/-- A word has no bit but those of its accepted values. -/
theorem testBit_of_combinerWord? {s : Step} {word : UInt32} (made : s.combinerWord? = some word)
    (v : Nat) : word.toNat.testBit v = (decide (v < 2 ^ s.conditions.length) &&
      s.operation.result s.polarities v.testBit) := by
  obtain ⟨hot, values, collected⟩ := Option.bind_eq_some_iff.1 made
  have few : s.conditions.length < 32 := isSome_oneHot?.1 (Option.isSome_of_eq_some values)
  rw [oneHot?_of_lt few] at values
  rw [← Option.some.inj values, toNat_oneHot few] at collected
  rw [testBit_of_collect? (accepts?_values few) collected, Nat.zero_add, Nat.one_shiftLeft]
  simp

/-- A combiner word answers for every choice of matches of the patterns. -/
theorem testBit_combinerWord {s : Step} {word : UInt32} (made : s.combinerWord? = some word)
    (matched : Nat → Bool) : word.toNat.testBit (bitsBelow s.conditions.length matched) =
      s.operation.result s.polarities matched := by
  have below := bitsBelow_lt s.conditions.length matched
  rw [Nat.one_shiftLeft] at below
  rw [testBit_of_combinerWord? made, decide_eq_true below, Bool.true_and]
  apply Operation.result_congr
  intro i lt
  rw [testBit_bitsBelow, decide_eq_true (by simpa [polarities] using lt), Bool.true_and]

end Step

end LogicCapture
