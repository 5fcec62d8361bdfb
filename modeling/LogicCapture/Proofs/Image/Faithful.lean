import LogicCapture.Proofs.Image.Transposition
import LogicCapture.Proofs.Trigger.TruthTable

/-!
# What the words of an image tell

The words are read back region by region: the matchers give every symbol of
every pattern, as a table of two symbols determines both; the combiners give the
truth table of the combination; the counts give the counter states, which stand
for one count each; the flags give the number of active steps and which of them
are contiguous. `Program.words_eq_words_iff` is the result for whole programs:
their words are equal exactly when their active steps are alike.
-/

namespace LogicCapture

/-! ## Symbols from their tables -/

namespace Symbol

theorem eq_of_accepts {a b : Symbol} (same : ∀ p c, a.accepts p c = b.accepts p c) : a = b := by
  have table := fun p c => same p c
  revert table
  cases a <;> cases b <;> decide

theorem exists_accepts (a : Symbol) : ∃ p c, a.accepts p c = true := by
  cases a with
  | any => exact ⟨true, true, rfl⟩
  | high => exact ⟨true, true, rfl⟩
  | low => exact ⟨true, false, rfl⟩
  | rising => exact ⟨false, true, rfl⟩
  | falling => exact ⟨true, false, rfl⟩
  | change => exact ⟨true, false, rfl⟩

/-- What two symbols accept together determines both, as neither of them accepts
nothing. -/
theorem eq_of_accepts_pair {upper lower upper' lower' : Symbol}
    (same : ∀ p n q m, (upper.accepts p n && lower.accepts q m) =
      (upper'.accepts p n && lower'.accepts q m)) : upper = upper' ∧ lower = lower' := by
  obtain ⟨p, n, up⟩ := upper.exists_accepts
  obtain ⟨q, m, low⟩ := lower.exists_accepts
  have both := same p n q m
  rw [up, low, Bool.and_true, eq_comm, Bool.and_eq_true] at both
  constructor
  · apply eq_of_accepts
    intro a b
    have fixed := same a b q m
    rwa [low, both.2, Bool.and_true, Bool.and_true] at fixed
  · apply eq_of_accepts
    intro a b
    have fixed := same p n a b
    rwa [up, both.1, Bool.true_and, Bool.true_and] at fixed

end Symbol

/-- Patterns that have the same symbols by channel are the same. -/
theorem Pattern.eq_of_channel? {p q : Pattern}
    (same : ∀ channel, p.channel? channel = q.channel? channel) : p = q := by
  have reversed : p.symbols.reverse = q.symbols.reverse := List.ext_getElem? same
  cases p
  cases q
  exact congrArg Pattern.mk (List.reverse_injective reversed)

/-! ## Steps from their words -/

namespace Step

/-- What the words keep of a step: patterns symbol by symbol, contiguity, the
count with none standing for one, and the truth table of the combination. -/
structure Alike (a b : Step) : Prop where
  patterns : a.conditions.map Condition.pattern = b.conditions.map Condition.pattern
  contiguous : a.contiguous = b.contiguous
  count : max a.count.toNat 1 = max b.count.toNat 1
  combination : SameCombination a.operation a.polarities b.operation b.polarities

variable {a b : Step} {g : Geometry}

theorem getElem?_patterns {s : Step} {k : Nat} :
    (s.conditions.map Condition.pattern)[k]? = s.conditions[k]?.map Condition.pattern :=
  List.getElem?_map

/-- Half words look at nothing but the patterns. -/
theorem halfWord?_congr
    (same : a.conditions.map Condition.pattern = b.conditions.map Condition.pattern)
    (channel k : Nat) : a.halfWord? channel k = b.halfWord? channel k := by
  have patternAt : a.conditions[k]?.map Condition.pattern =
      b.conditions[k]?.map Condition.pattern := by
    rw [← getElem?_patterns, ← getElem?_patterns, same]
  rw [halfWord?, halfWord?]
  cases here : a.conditions[k]? with
  | none =>
    rw [here, Option.map_none, eq_comm, Option.map_eq_none_iff] at patternAt
    rw [patternAt]
  | some c =>
    rw [here, Option.map_some, eq_comm, Option.map_eq_some_iff] at patternAt
    obtain ⟨d, there, eq⟩ := patternAt
    rw [there]
    simp only [Option.bind_eq_bind, Option.bind_some, eq]

theorem matcherWords?_congr (aFits : a.Fits g) (bFits : b.Fits g)
    (same : a.conditions.map Condition.pattern = b.conditions.map Condition.pattern) :
    a.matcherWords? g.wordsPerStep = b.matcherWords? g.wordsPerStep := by
  have places : a.matcherPlaces = b.matcherPlaces := by
    rw [matcherPlaces, matcherPlaces, leadWidth_eq aFits, leadWidth_eq bFits, aFits.1, bFits.1]
  have words : a.matcherWord? = b.matcherWord? := by
    funext place
    rw [matcherWord?, matcherWord?, halfWord?_congr same, halfWord?_congr same]
  rw [matcherWords?, matcherWords?, places, words]

/-- Equal matcher words come from equal patterns. -/
theorem patterns_eq_of_matcherWords (aFits : a.Fits g) (bFits : b.Fits g)
    (same : a.matcherWords? g.wordsPerStep = b.matcherWords? g.wordsPerStep) :
    a.conditions.map Condition.pattern = b.conditions.map Condition.pattern := by
  obtain ⟨words, made⟩ := Option.isSome_iff_exists.1 (isSome_matcherWords? aFits g.wordsPerStep)
  have made' := same.symm.trans made
  rw [matcherWords?_eq aFits] at made
  rw [matcherWords?_eq bFits] at made'
  -- the word for a pair of channels of a couple of patterns is one and the same
  have word : ∀ {pair couple}, pair < g.channels / 2 → couple < g.patternSlots / 2 →
      a.matcherWord? (2 * pair + 1, 2 * couple + 1) =
        b.matcherWord? (2 * pair + 1, 2 * couple + 1) := by
    intro pair couple pairLt coupleLt
    have left := getElem?_of_mapM made ((g.channels / 2 - 1 - pair) * (g.patternSlots / 2) +
      (g.patternSlots / 2 - 1 - couple))
    have right := getElem?_of_mapM made' ((g.channels / 2 - 1 - pair) * (g.patternSlots / 2) +
      (g.patternSlots / 2 - 1 - couple))
    rw [getElem?_matcherPlaces aFits pairLt coupleLt, Option.bind_some] at left
    rw [getElem?_matcherPlaces bFits pairLt coupleLt, Option.bind_some] at right
    exact left.symm.trans right
  apply List.ext_getElem (by simp only [List.length_map, aFits.1, bFits.1])
  intro k kLt kLt'
  rw [List.length_map] at kLt kLt'
  rw [List.getElem_map, List.getElem_map]
  have aAt : a.conditions[k]? = some a.conditions[k] := List.getElem?_eq_getElem kLt
  have bAt : b.conditions[k]? = some b.conditions[k] := List.getElem?_eq_getElem kLt'
  have coupleLt : k / 2 < g.patternSlots / 2 := by
    have lt : k < g.patternSlots := aFits.1 ▸ kLt
    rcases g.patternSlots_eq with two | four <;> omega
  have aWidth : a.conditions[k].pattern.width = g.channels := aFits.2 _ (List.getElem_mem kLt)
  have bWidth : b.conditions[k].pattern.width = g.channels := bFits.2 _ (List.getElem_mem kLt')
  apply Pattern.eq_of_channel?
  intro channel
  rcases Nat.lt_or_ge channel g.channels with lt | ge
  · have even := g.channels_even
    have pairLt : channel / 2 < g.channels / 2 := by omega
    obtain ⟨w, u, l, wAt, uAt, lAt, bits⟩ := testBit_matcherWord aFits aAt pairLt
    obtain ⟨w', u', l', wAt', uAt', lAt', bits'⟩ := testBit_matcherWord bFits bAt pairLt
    have one : w = w' := Option.some.inj (wAt.symm.trans ((word pairLt coupleLt).trans wAt'))
    subst one
    obtain ⟨rfl, rfl⟩ := Symbol.eq_of_accepts_pair fun p n q m =>
      (bits p n q m).symm.trans (bits' p n q m)
    rcases Nat.mod_two_eq_zero_or_one channel with isLower | isUpper
    · rw [show channel = 2 * (channel / 2) by omega, lAt, lAt']
    · rw [show channel = 2 * (channel / 2) + 1 by omega, uAt, uAt']
  · have beyond : ∀ p : Pattern, p.width = g.channels → p.channel? channel = none := by
      intro p width
      rw [← Option.not_isSome_iff_eq_none, Pattern.isSome_channel?]
      omega
    rw [beyond _ aWidth, beyond _ bWidth]

/-- Steps that accept the same choices have the same combiner word. -/
theorem combinerWord?_congr (length : a.conditions.length = b.conditions.length)
    (few : a.conditions.length ≤ 5)
    (same : ∀ matched, a.operation.result a.polarities matched =
      b.operation.result b.polarities matched) : a.combinerWord? = b.combinerWord? := by
  obtain ⟨word, made⟩ := Option.isSome_iff_exists.1 (isSome_combinerWord? few)
  obtain ⟨other, made'⟩ := Option.isSome_iff_exists.1 (isSome_combinerWord? (s := b) (by omega))
  rw [made, made']
  refine congrArg some (UInt32.toNat_inj.1 (Nat.eq_of_testBit_eq fun v => ?_))
  rw [testBit_of_combinerWord? made, testBit_of_combinerWord? made', length, same]

/-- Combiner words are equal exactly when the combinations have one truth
table. -/
theorem combinerWord?_eq_iff (length : a.conditions.length = b.conditions.length)
    (few : a.conditions.length ≤ 5) :
    a.combinerWord? = b.combinerWord? ↔
      SameCombination a.operation a.polarities b.operation b.polarities := by
  rw [← Operation.result_eq_result_iff (by simpa [polarities] using length)]
  constructor
  · intro same matched
    obtain ⟨word, made⟩ := Option.isSome_iff_exists.1 (isSome_combinerWord? few)
    have made' := same.symm.trans made
    rw [← testBit_combinerWord made, ← testBit_combinerWord made', length]
  · exact combinerWord?_congr length few

end Step

/-! ## Programs from their words -/

namespace Program

variable {p q : Program}

/-- Images of one geometry have the same words exactly when they have the same
regions. -/
theorem words_eq_iff_regions (same : p.geometry = q.geometry) :
    p.compile.words = q.compile.words ↔
      p.compile.matchers = q.compile.matchers ∧ p.compile.combiners = q.compile.combiners ∧
        p.compile.counts = q.compile.counts ∧ p.compile.flags = q.compile.flags := by
  constructor
  · intro words
    simp only [Image.words, List.append_assoc] at words
    obtain ⟨matchers, rest⟩ := List.append_inj words
      (by rw [p.length_matchers, q.length_matchers, same])
    obtain ⟨combiners, rest⟩ := List.append_inj rest
      (by rw [p.length_combiners, q.length_combiners, same])
    obtain ⟨counts, flags⟩ := List.append_inj rest
      (by rw [p.length_counts, q.length_counts, same])
    exact ⟨matchers, combiners, counts, flags⟩
  · rintro ⟨matchers, combiners, counts, flags⟩
    simp only [Image.words, matchers, combiners, counts, flags]

/-- What is collected over the slots is equal exactly when it is equal slot by
slot. -/
theorem collected_eq_iff {β : Type} {f : Step → Option β} {results others : List β}
    (same : p.geometry = q.geometry) (collected : p.slots.reverse.mapM f = some results)
    (othersCollected : q.slots.reverse.mapM f = some others) :
    results = others ↔
      ∀ s < p.geometry.stepSlots, p.slots[s]?.bind f = q.slots[s]?.bind f := by
  have slot : ∀ i, results[i]? = p.slots.reverse[i]?.bind f := getElem?_of_mapM collected
  have slot' : ∀ i, others[i]? = q.slots.reverse[i]?.bind f := getElem?_of_mapM othersCollected
  constructor
  · intro eq s within
    rw [← p.getElem?_reverse_slots within, ← q.getElem?_reverse_slots (same ▸ within), ← slot,
      ← same, ← slot', eq]
  · intro all
    apply List.ext_getElem?
    intro i
    rw [slot, slot']
    rcases Nat.lt_or_ge i p.geometry.stepSlots with lt | ge
    · have turned : i = p.geometry.stepSlots - 1 - (p.geometry.stepSlots - 1 - i) := by omega
      have within : p.geometry.stepSlots - 1 - i < p.geometry.stepSlots := by omega
      rw [turned, p.getElem?_reverse_slots within]
      rw [same] at within ⊢
      rw [q.getElem?_reverse_slots within, ← same]
      exact all _ (same ▸ within)
    · rw [List.getElem?_eq_none (by rw [List.length_reverse, p.length_slots]; exact ge),
        List.getElem?_eq_none (by rw [List.length_reverse, q.length_slots, ← same]; exact ge)]

theorem matchers_eq_iff (same : p.geometry = q.geometry) :
    p.compile.matchers = q.compile.matchers ↔
      ∀ s < p.geometry.stepSlots,
        p.slots[s]?.bind (·.matcherWords? p.geometry.wordsPerStep) =
          q.slots[s]?.bind (·.matcherWords? p.geometry.wordsPerStep) := by
  obtain ⟨blocks, collected, sized, matchers⟩ := p.matchers_blocks
  obtain ⟨others, collected', sized', matchers'⟩ := q.matchers_blocks
  rw [← same] at collected' sized'
  rw [matchers, matchers', ← collected_eq_iff same collected collected']
  refine ⟨fun eq => flatten_inj_of_blocks sized sized' ?_ eq, fun eq => by rw [eq]⟩
  rw [length_of_mapM collected, length_of_mapM collected', List.length_reverse,
    List.length_reverse, p.length_slots, q.length_slots, same]

theorem active_length_le (p : Program) : p.active.length ≤ 32 := by
  have within := p.last_lt
  have few := p.geometry.stepSlots_le
  rw [p.length_active]
  omega

theorem counts_eq_iff (last : p.last = q.last) :
    p.compile.counts = q.compile.counts ↔
      p.active.map (·.target) = q.active.map (·.target) := by
  have collected := p.counts_collected
  have collected' := q.counts_collected
  rw [Geometry.counterBits_eq] at collected collected'
  rw [← Planes.countWords?_inj (by simp only [List.length_map, length_active, last])
    (by rw [List.length_map]; exact p.active_length_le), collected, collected',
    Option.some_inj]

theorem flags_eq_iff :
    p.compile.flags = q.compile.flags ↔
      p.active.map (·.contiguous) = q.active.map (·.contiguous) := by
  rw [← Planes.flagWords?_inj (by simp [length_active]) (by simp [length_active])
    (by rw [List.length_map]; exact p.active_length_le), p.flags_collected, q.flags_collected,
    Option.some_inj]

/-- In a slot that both programs use, the words agree exactly when the patterns
and combinations do. -/
theorem slot_words_eq_iff {a b : Step} {g : Geometry} (aFits : a.Fits g) (bFits : b.Fits g) :
    (a.matcherWords? g.wordsPerStep = b.matcherWords? g.wordsPerStep ∧
      a.combinerWord? = b.combinerWord?) ↔
    (a.conditions.map Condition.pattern = b.conditions.map Condition.pattern ∧
      SameCombination a.operation a.polarities b.operation b.polarities) := by
  have few : a.conditions.length ≤ 5 := by
    rw [aFits.1]
    rcases g.patternSlots_eq with two | four <;> omega
  rw [Step.combinerWord?_eq_iff (by rw [aFits.1, bFits.1]) few]
  exact and_congr_left fun _ => ⟨Step.patterns_eq_of_matcherWords aFits bFits,
    Step.matcherWords?_congr aFits bFits⟩

/-- Up to a last step that both share, the programs run alike steps. -/
def StepsAlike (p q : Program) : Prop :=
  ∀ s ≤ p.last, ∀ a b, p.steps[s]? = some a → q.steps[s]? = some b → a.Alike b

/-- The same words come from alike steps. -/
theorem stepsAlike_of_words (same : p.geometry = q.geometry) (last : p.last = q.last)
    (matchers : p.compile.matchers = q.compile.matchers)
    (combiners : p.compile.combiners = q.compile.combiners)
    (counts : p.compile.counts = q.compile.counts) (flags : p.compile.flags = q.compile.flags) :
    StepsAlike p q := by
  intro s le a b aAt bAt
  have within : s < p.geometry.stepSlots := Nat.lt_of_le_of_lt le p.last_lt
  have aSlot := p.getElem?_slots_of_le le ▸ aAt
  have bSlot := q.getElem?_slots_of_le (last ▸ le) ▸ bAt
  have words := (matchers_eq_iff same).1 matchers s within
  have word := (collected_eq_iff same p.combiners_collected q.combiners_collected).1 combiners s
    within
  have target := congrArg (·[s]?) ((counts_eq_iff last).1 counts)
  have flag := congrArg (·[s]?) (flags_eq_iff.1 flags)
  simp only [aSlot, bSlot, Option.bind_some] at words word
  simp only [List.getElem?_map, getElem?_active le, getElem?_active (last ▸ le), aAt, bAt,
    Option.map_some, Option.some_inj] at target flag
  obtain ⟨patterns, combination⟩ := (slot_words_eq_iff
    (p.slots_fit a (List.mem_of_getElem? aSlot))
    (same ▸ q.slots_fit b (List.mem_of_getElem? bSlot))).1 ⟨words, word⟩
  exact ⟨patterns, flag, (MatchCounter.encode_eq_encode_iff _ _).1 target, combination⟩

/-- Alike steps up to the last one, and neutral steps behind it, fill the slots
with the same words. -/
theorem slots_of_stepsAlike (same : p.geometry = q.geometry) (last : p.last = q.last)
    (alike : StepsAlike p q) {s : Nat} (within : s < p.geometry.stepSlots) :
    ∃ a b, p.slots[s]? = some a ∧ q.slots[s]? = some b ∧
      a.matcherWords? p.geometry.wordsPerStep = b.matcherWords? p.geometry.wordsPerStep ∧
      a.combinerWord? = b.combinerWord? := by
  rcases Nat.lt_or_ge p.last s with behind | le
  · exact ⟨_, _, p.getElem?_slots_of_lt behind within,
      q.getElem?_slots_of_lt (last ▸ behind) (same ▸ within), by rw [same], by rw [same]⟩
  · obtain ⟨a, aAt⟩ : ∃ a, p.steps[s]? = some a :=
      ⟨_, List.getElem?_eq_getElem (by rw [p.steps_length]; exact within)⟩
    obtain ⟨b, bAt⟩ : ∃ b, q.steps[s]? = some b :=
      ⟨_, List.getElem?_eq_getElem (by rw [q.steps_length, ← same]; exact within)⟩
    have pair := alike s le a b aAt bAt
    have bFits := q.steps_fit b (List.mem_of_getElem? bAt)
    rw [← same] at bFits
    refine ⟨a, b, (p.getElem?_slots_of_le le).trans aAt,
      (q.getElem?_slots_of_le (last ▸ le)).trans bAt, ?_⟩
    exact (slot_words_eq_iff (p.steps_fit a (List.mem_of_getElem? aAt)) bFits).2
      ⟨pair.patterns, pair.combination⟩

/-- What alike steps share, the active steps share in order. -/
theorem map_active_of_stepsAlike {β : Type} {f : Step → β} (last : p.last = q.last)
    (alike : StepsAlike p q) (shared : ∀ a b, a.Alike b → f a = f b) :
    p.active.map f = q.active.map f := by
  apply List.ext_getElem (by simp only [List.length_map, length_active, last])
  intro s sLt sLt'
  rw [List.length_map, length_active] at sLt sLt'
  rw [List.getElem_map, List.getElem_map]
  apply shared
  apply alike s (by omega)
  · rw [← getElem?_active (by omega), List.getElem?_eq_getElem]
  · rw [← getElem?_active (by omega), List.getElem?_eq_getElem]

/-- Programs for one engine compile to the same words exactly when the same step
ends their sequences and all steps up to it are alike. Slots behind that step
and the capture settings do not show in the words. -/
theorem words_eq_words_iff {p q : Program} (same : p.geometry = q.geometry) :
    p.compile.words = q.compile.words ↔
      p.last = q.last ∧
        ∀ s ≤ p.last, ∀ a b, p.steps[s]? = some a → q.steps[s]? = some b → a.Alike b := by
  rw [words_eq_iff_regions same]
  constructor
  · rintro ⟨matchers, combiners, counts, flags⟩
    have length := congrArg List.length (flags_eq_iff.1 flags)
    simp only [List.length_map, length_active] at length
    have last : p.last = q.last := by omega
    exact ⟨last, stepsAlike_of_words same last matchers combiners counts flags⟩
  · rintro ⟨last, alike⟩
    refine ⟨(matchers_eq_iff same).2 fun s within => ?_,
      (collected_eq_iff same p.combiners_collected q.combiners_collected).2 fun s within => ?_,
      (counts_eq_iff last).2 (map_active_of_stepsAlike last alike fun a b pair => ?_),
      flags_eq_iff.2 (map_active_of_stepsAlike last alike fun a b pair => pair.contiguous)⟩
    · obtain ⟨a, b, aAt, bAt, words, -⟩ := slots_of_stepsAlike same last alike within
      simp only [aAt, bAt, Option.bind_some, words]
    · obtain ⟨a, b, aAt, bAt, -, word⟩ := slots_of_stepsAlike same last alike within
      simp only [aAt, bAt, Option.bind_some, word]
    · exact (MatchCounter.encode_eq_encode_iff _ _).2 pair.count

/-- Two channels and one active step with a single term, a high channel 0. The
operation and the count are left open. -/
def singleTerm (operation : Operation) (count : UInt16) (unused : Operation) : Program where
  geometry := ⟨⟨2, 2, 2, 16⟩, by decide⟩
  steps :=
    [{ conditions := [⟨⟨[.any, .high]⟩, .normal⟩, ⟨⟨[.low, .any]⟩, .disabled⟩], operation, count },
      { conditions := [⟨⟨[.any, .low]⟩, .inverted⟩, ⟨⟨[.low, .any]⟩, .normal⟩]
        operation := unused }]
  last := 0
  settings := .standard
  steps_length := rfl
  steps_fit := by
    intro step mem
    rcases List.mem_pair.1 mem with rfl | rfl
    all_goals
      refine ⟨rfl, fun c conditionMem => ?_⟩
      rcases List.mem_pair.1 conditionMem with rfl | rfl
      all_goals rfl
  last_lt := by decide

/-- The operation of a single term, a count of none instead of one, and a slot
that is never reached do not show. -/
theorem words_eq_words_iff_singleTerm :
    (singleTerm .conj 0 .conj).geometry = (singleTerm .disj 1 .disj).geometry ∧
      (singleTerm .conj 0 .conj).compile.words = (singleTerm .disj 1 .disj).compile.words := by
  have same : (singleTerm .conj 0 .conj).geometry = (singleTerm .disj 1 .disj).geometry := rfl
  refine ⟨same, (words_eq_words_iff same).2 ⟨rfl, fun s le a b aAt bAt => ?_⟩⟩
  obtain rfl : s = 0 := Nat.le_zero.1 le
  cases aAt
  cases bAt
  have sole : SoleTerm [.normal, .disabled] 0 .normal := by
    refine ⟨by decide, rfl, fun i other otherAt ne => ?_⟩
    match i with
    | 0 => exact absurd rfl ne
    | 1 =>
      cases otherAt
      rfl
    | i + 2 => cases otherAt
  exact ⟨rfl, rfl, rfl, Or.inr ⟨by decide, 0, .normal, sole, sole⟩⟩

end Program

end LogicCapture
