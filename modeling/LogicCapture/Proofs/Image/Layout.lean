import LogicCapture.Image.Compile

/-!
# Places of table words

A compiled image is built region by region, and within the first two regions
slot by slot from the last one down. The engine knows nothing of that: it finds
a word by its place among all words. This module joins the two. The place of a
word follows from the geometry alone (`Geometry.matcherIndex`,
`Geometry.combinerIndex`), and `Program.getElem?_matcherIndex` and
`Program.getElem?_combinerIndex` say which step, channels and patterns the word
at that place was made from.
-/

namespace LogicCapture

/-! ## Collected results and flattened blocks -/

section Lists

variable {α β : Type}

/-- Collected results stand where the items that gave them stood. -/
theorem getElem?_of_mapM {f : α → Option β} {items : List α} {results : List β}
    (collected : items.mapM f = some results) (i : Nat) :
    results[i]? = items[i]?.bind f := by
  induction items generalizing results i with
  | nil =>
    cases collected
    simp
  | cons item rest ih =>
    rw [List.mapM_cons] at collected
    obtain ⟨result, first, others⟩ := Option.bind_eq_some_iff.1 collected
    obtain ⟨tail, restCollected, eq⟩ := Option.bind_eq_some_iff.1 others
    cases eq
    cases i with
    | zero => simp [first]
    | succ i => simpa using ih restCollected i

theorem length_of_mapM {f : α → Option β} {items : List α} {results : List β}
    (collected : items.mapM f = some results) : results.length = items.length := by
  induction items generalizing results with
  | nil =>
    cases collected
    rfl
  | cons item rest ih =>
    rw [List.mapM_cons] at collected
    obtain ⟨result, -, others⟩ := Option.bind_eq_some_iff.1 collected
    obtain ⟨tail, restCollected, eq⟩ := Option.bind_eq_some_iff.1 others
    cases eq
    simp [ih restCollected]

/-- Every collected result comes from one of the items. -/
theorem exists_of_mem_mapM {f : α → Option β} {items : List α} {results : List β}
    (collected : items.mapM f = some results) {result : β} (mem : result ∈ results) :
    ∃ item ∈ items, f item = some result := by
  obtain ⟨i, at_i⟩ := List.mem_iff_getElem?.1 mem
  rw [getElem?_of_mapM collected] at at_i
  obtain ⟨item, itemAt, made⟩ := Option.bind_eq_some_iff.1 at_i
  exact ⟨item, List.mem_of_getElem? itemAt, made⟩

theorem length_flatten_of_blocks {blocks : List (List α)} {size : Nat}
    (sized : ∀ block ∈ blocks, block.length = size) :
    blocks.flatten.length = blocks.length * size := by
  induction blocks with
  | nil => simp
  | cons block rest ih =>
    rw [List.flatten_cons, List.length_append, sized block (by simp),
      ih fun b mem => sized b (List.mem_cons_of_mem _ mem), List.length_cons, Nat.succ_mul]
    omega

/-- In blocks of one size, item `offset` of block `number` stands behind all
items of the blocks before. -/
theorem getElem?_flatten_of_blocks {blocks : List (List α)} {size : Nat}
    (sized : ∀ block ∈ blocks, block.length = size) (number : Nat) {offset : Nat}
    (within : offset < size) :
    blocks.flatten[number * size + offset]? = blocks[number]?.bind (·[offset]?) := by
  induction blocks generalizing number with
  | nil => simp
  | cons block rest ih =>
    have first : block.length = size := sized block (by simp)
    cases number with
    | zero =>
      rw [List.flatten_cons, Nat.zero_mul, Nat.zero_add,
        List.getElem?_append_left (by omega)]
      simp
    | succ number =>
      rw [List.flatten_cons, Nat.succ_mul, List.getElem?_append_right (by omega),
        show number * size + size + offset - block.length = number * size + offset by omega,
        ih (fun b mem => sized b (List.mem_cons_of_mem _ mem)) number]
      simp

/-- Equally many blocks of one size are told apart by their items in a row. -/
theorem flatten_inj_of_blocks {blocks others : List (List α)} {size : Nat}
    (sized : ∀ block ∈ blocks, block.length = size)
    (othersSized : ∀ block ∈ others, block.length = size)
    (length : blocks.length = others.length) (same : blocks.flatten = others.flatten) :
    blocks = others := by
  induction blocks generalizing others with
  | nil =>
    cases others with
    | nil => rfl
    | cons other rest => cases length
  | cons block rest ih =>
    cases others with
    | nil => cases length
    | cons other others =>
      rw [List.flatten_cons, List.flatten_cons] at same
      have first : block.length = other.length := by
        rw [sized block (by simp), othersSized other (by simp)]
      obtain ⟨rfl, tail⟩ := List.append_inj same first
      rw [ih (fun b mem => sized b (List.mem_cons_of_mem _ mem))
        (fun b mem => othersSized b (List.mem_cons_of_mem _ mem)) (Nat.succ.inj length) tail]

end Lists

/-! ## Places -/

namespace Geometry

variable (g : Geometry)

theorem wordsPerStep_eq : g.wordsPerStep = g.channels / 2 * (g.patternSlots / 2) := by
  have even := g.channels_even
  unfold wordsPerStep
  rcases g.patternSlots_eq with two | four
  · rw [two]
    omega
  · rw [four]
    omega

/-- Place of the matcher word of slot `slot` for channels `2 * pair + 1` and
`2 * pair` of patterns `2 * couple + 1` and `2 * couple`. In the block of a slot
the pairs run from the top channels down, and within a pair the couples from the
highest patterns down. -/
def matcherIndex (slot pair couple : Nat) : Nat :=
  g.matcherRegion.start + slot * g.wordsPerStep +
    ((g.channels / 2 - 1 - pair) * (g.patternSlots / 2) + (g.patternSlots / 2 - 1 - couple))

/-- Place of the combiner word of slot `slot`. -/
def combinerIndex (slot : Nat) : Nat := g.combinerRegion.start + slot

/-- The offset of a matcher word stays within the block of its slot. -/
theorem matcherOffset_lt {pair couple : Nat} (pairLt : pair < g.channels / 2)
    (coupleLt : couple < g.patternSlots / 2) :
    (g.channels / 2 - 1 - pair) * (g.patternSlots / 2) + (g.patternSlots / 2 - 1 - couple) <
      g.wordsPerStep := by
  rw [wordsPerStep_eq]
  obtain ⟨below, eq⟩ : ∃ below, g.channels / 2 - 1 - pair = below ∧ below + 1 ≤ g.channels / 2 :=
    ⟨_, rfl, by omega⟩
  calc _ < (g.channels / 2 - 1 - pair) * (g.patternSlots / 2) + g.patternSlots / 2 := by omega
    _ = (below + 1) * (g.patternSlots / 2) := by rw [eq.1, Nat.succ_mul]
    _ ≤ g.channels / 2 * (g.patternSlots / 2) := Nat.mul_le_mul_right _ eq.2

end Geometry

/-! ## The words of a region -/

namespace Region

variable {r : Region} {words : List UInt32}

def slice (r : Region) (words : List UInt32) : List UInt32 :=
  (words.drop r.start).take (r.stop - r.start)

/-- A region covers what begins and ends where it does. -/
theorem slice_append {front middle back : List UInt32} (start : front.length = r.start)
    (stop : r.start + middle.length = r.stop) : r.slice (front ++ middle ++ back) = middle := by
  have size : middle.length = r.stop - r.start := by omega
  rw [slice, List.append_assoc, List.drop_left' start, List.take_left' size]

theorem getElem?_slice {i : Nat} (within : r.start + i < r.stop) :
    (r.slice words)[i]? = words[r.start + i]? := by
  have inside : i < r.stop - r.start := by omega
  rw [slice, List.getElem?_take_of_lt inside, List.getElem?_drop]

end Region

/-! ## The words of one step -/

namespace Step

theorem length_everySecond {α : Type} (l : List α) :
    (everySecond l).length = (l.length + 1) / 2 := by
  fun_induction everySecond l with
  | case1 => simp
  | case2 => simp
  | case3 first second rest ih =>
    simp only [List.length_cons, ih]
    omega

theorem getElem?_everySecond {α : Type} (l : List α) (i : Nat) :
    (everySecond l)[i]? = l[2 * i]? := by
  fun_induction everySecond l generalizing i with
  | case1 => rfl
  | case2 first =>
    cases i with
    | zero => rfl
    | succ i =>
      rw [List.getElem?_eq_none (by simp), List.getElem?_eq_none]
      rw [List.length_singleton]
      omega
  | case3 first second rest ih =>
    cases i with
    | zero => rfl
    | succ i =>
      rw [List.getElem?_cons_succ, ih, Nat.mul_succ, List.getElem?_cons_succ,
        List.getElem?_cons_succ]

theorem length_uppers (n : Nat) : (uppers n).length = n / 2 := by
  rw [uppers, length_everySecond, List.length_reverse, List.length_range']
  omega

theorem getElem?_uppers {n i : Nat} (lt : i < n / 2) : (uppers n)[i]? = some (n - 1 - 2 * i) := by
  have within : 2 * i < (List.range' 1 (n - 1)).length := by
    rw [List.length_range']
    omega
  rw [uppers, getElem?_everySecond, List.getElem?_reverse within, List.length_range',
    List.getElem?_range' (by omega)]
  congr 1
  omega

variable {s : Step} {g : Geometry}

theorem leadWidth_eq (fits : s.Fits g) : s.leadWidth = g.channels := by
  unfold leadWidth
  split
  · next none =>
    have length := fits.1
    rw [none, List.length_nil] at length
    rcases g.patternSlots_eq with two | four <;> omega
  · next c rest eq => exact fits.2 c (by simp [eq])

/-- There is a couple of patterns for each place of one pair of channels. -/
theorem length_couples {block : List (Nat × Nat)}
    (mem : block ∈ (uppers s.leadWidth).map fun upper =>
      (uppers s.conditions.length).map fun second => (upper, second)) :
    block.length = s.conditions.length / 2 := by
  obtain ⟨channel, -, rfl⟩ := List.mem_map.1 mem
  rw [List.length_map, length_uppers]

theorem length_places (s : Step) :
    s.matcherPlaces.length = s.leadWidth / 2 * (s.conditions.length / 2) := by
  rw [matcherPlaces, List.flatMap, length_flatten_of_blocks fun _ => length_couples,
    List.length_map, length_uppers]

/-- The places go through the pairs of channels, and for each through the couples of
patterns, from the top down. -/
theorem getElem?_places {pair couple : Nat} (pair_lt : pair < s.leadWidth / 2)
    (couple_lt : couple < s.conditions.length / 2) :
    s.matcherPlaces[pair * (s.conditions.length / 2) + couple]? =
      some (s.leadWidth - 1 - 2 * pair, s.conditions.length - 1 - 2 * couple) := by
  rw [matcherPlaces, List.flatMap, getElem?_flatten_of_blocks (fun _ => length_couples) _ couple_lt,
    List.getElem?_map, getElem?_uppers pair_lt, Option.map_some, Option.bind_some,
    List.getElem?_map, getElem?_uppers couple_lt, Option.map_some]

theorem length_matcherPlaces (fits : s.Fits g) : s.matcherPlaces.length = g.wordsPerStep := by
  rw [length_places, leadWidth_eq fits, fits.1, g.wordsPerStep_eq]

/-- For a step that fits, the places by their channels and patterns from the lowest up. -/
theorem getElem?_matcherPlaces (fits : s.Fits g) {pair couple : Nat}
    (pairLt : pair < g.channels / 2) (coupleLt : couple < g.patternSlots / 2) :
    s.matcherPlaces[(g.channels / 2 - 1 - pair) * (g.patternSlots / 2) +
      (g.patternSlots / 2 - 1 - couple)]? = some (2 * pair + 1, 2 * couple + 1) := by
  have channels_even : g.channels % 2 = 0 := g.channels_even
  have patterns_even : g.patternSlots % 2 = 0 := by
    rcases g.patternSlots_eq with two | four <;> omega
  have width := leadWidth_eq fits
  have place : s.matcherPlaces[(g.channels / 2 - 1 - pair) * (s.conditions.length / 2) +
      (s.conditions.length / 2 - 1 - couple)]? = _ :=
    getElem?_places (by omega) (by rw [fits.1]; omega)
  rw [fits.1, width] at place
  rw [place, Option.some.injEq, Prod.mk.injEq]
  omega

/-- A step that fits has exactly as many matcher words as there is room for. -/
theorem matcherWords?_eq (fits : s.Fits g) :
    s.matcherWords? g.wordsPerStep = s.matcherPlaces.mapM s.matcherWord? := by
  rw [matcherWords?, ← length_matcherPlaces fits, List.take_length]

theorem length_matcherWords (fits : s.Fits g) {words : List UInt32}
    (made : s.matcherWords? g.wordsPerStep = some words) : words.length = g.wordsPerStep := by
  rw [matcherWords?_eq fits] at made
  rw [length_of_mapM made, length_matcherPlaces fits]

end Step

/-! ## What the slots hold -/

namespace Program

variable (p : Program)

theorem length_slots : p.slots.length = p.geometry.stepSlots := by
  have within := p.last_lt
  rw [slots, List.length_append, List.length_replicate, p.length_active]
  omega

theorem getElem?_active {p : Program} {s : Nat} (le : s ≤ p.last) :
    p.active[s]? = p.steps[s]? := by
  rw [active, List.getElem?_take, if_pos (by omega)]

theorem getElem?_active_of_lt {p : Program} {s : Nat} (lt : p.last < s) :
    p.active[s]? = none := by
  rw [active, List.getElem?_take, if_neg (by omega)]

/-- Up to the last active step the slots hold the steps of the program. -/
theorem getElem?_slots_of_le {s : Nat} (le : s ≤ p.last) : p.slots[s]? = p.steps[s]? := by
  rw [slots, List.getElem?_append_left (by rw [p.length_active]; omega), active,
    List.getElem?_take, if_pos (by omega)]

/-- Behind the last active step they hold the neutral step. -/
theorem getElem?_slots_of_lt {s : Nat} (lt : p.last < s) (within : s < p.geometry.stepSlots) :
    p.slots[s]? = some (Step.neutral p.geometry) := by
  rw [slots, List.getElem?_append_right (by rw [p.length_active]; omega), p.length_active,
    List.getElem?_replicate, if_pos (by omega)]

/-- The slots are laid out from the last one down. -/
theorem getElem?_reverse_slots {s : Nat} (within : s < p.geometry.stepSlots) :
    p.slots.reverse[p.geometry.stepSlots - 1 - s]? = p.slots[s]? := by
  rw [List.getElem?_reverse (by rw [p.length_slots]; omega), p.length_slots]
  congr 1
  omega

/-! ## Regions of the image -/

/-- What `compile` collects, region by region. -/
theorem compile_regions :
    ∃ blocks, p.slots.reverse.mapM (·.matcherWords? p.geometry.wordsPerStep) = some blocks ∧
      p.compile.geometry = p.geometry ∧
      p.compile.matchers = blocks.flatten ∧
      p.slots.reverse.mapM Step.combinerWord? = some p.compile.combiners ∧
      Planes.countWords? p.geometry.counterBits (p.active.map (·.target)) =
        some p.compile.counts ∧
      Planes.flagWords? (p.active.map (·.contiguous)) = some p.compile.flags := by
  have compiled := p.compile?_eq_some
  rw [compile?] at compiled
  obtain ⟨blocks, matchers, compiled⟩ := Option.bind_eq_some_iff.1 compiled
  obtain ⟨combinerWords, combiners, compiled⟩ := Option.bind_eq_some_iff.1 compiled
  obtain ⟨countWords, counts, compiled⟩ := Option.bind_eq_some_iff.1 compiled
  obtain ⟨flagWords, flags, compiled⟩ := Option.bind_eq_some_iff.1 compiled
  have image := Option.some.inj compiled
  rw [← image]
  exact ⟨blocks, matchers, rfl, rfl, combiners, counts, flags⟩

@[simp] theorem compile_geometry : p.compile.geometry = p.geometry := by
  obtain ⟨_, _, geometry, _⟩ := p.compile_regions
  exact geometry

theorem combiners_collected :
    p.slots.reverse.mapM Step.combinerWord? = some p.compile.combiners := by
  obtain ⟨_, _, _, _, combiners, _⟩ := p.compile_regions
  exact combiners

theorem counts_collected :
    Planes.countWords? p.geometry.counterBits (p.active.map (·.target)) =
      some p.compile.counts := by
  obtain ⟨_, _, _, _, _, counts, _⟩ := p.compile_regions
  exact counts

theorem flags_collected :
    Planes.flagWords? (p.active.map (·.contiguous)) = some p.compile.flags := by
  obtain ⟨_, _, _, _, _, _, flags⟩ := p.compile_regions
  exact flags

/-- The matchers are blocks of one size, a block for every slot. -/
theorem matchers_blocks :
    ∃ blocks, p.slots.reverse.mapM (·.matcherWords? p.geometry.wordsPerStep) = some blocks ∧
      (∀ block ∈ blocks, block.length = p.geometry.wordsPerStep) ∧
      p.compile.matchers = blocks.flatten := by
  obtain ⟨blocks, collected, _, matchers, _⟩ := p.compile_regions
  refine ⟨blocks, collected, fun block mem => ?_, matchers⟩
  obtain ⟨step, stepMem, made⟩ := exists_of_mem_mapM collected mem
  exact Step.length_matcherWords (p.slots_fit step (List.mem_reverse.1 stepMem)) made

theorem length_matchers : p.compile.matchers.length = p.geometry.matcherRegion.stop := by
  obtain ⟨blocks, collected, sized, matchers⟩ := p.matchers_blocks
  rw [matchers, length_flatten_of_blocks sized, length_of_mapM collected, List.length_reverse,
    p.length_slots]
  rfl

theorem length_combiners : p.compile.combiners.length = p.geometry.stepSlots := by
  rw [length_of_mapM p.combiners_collected, List.length_reverse, p.length_slots]

theorem length_counts : p.compile.counts.length = p.geometry.counterBits := by
  rw [length_of_mapM p.counts_collected, List.length_reverse, List.length_range]

theorem length_flags : p.compile.flags.length = 2 := by
  have collected := p.flags_collected
  rw [Planes.flagWords?] at collected
  obtain ⟨last, -, collected⟩ := Option.bind_eq_some_iff.1 collected
  obtain ⟨mask, -, collected⟩ := Option.bind_eq_some_iff.1 collected
  rw [← Option.some.inj collected]
  rfl

/-- An image has a word for every place of the engine, and no more. -/
theorem length_words : p.compile.words.length = p.geometry.totalWords := by
  simp only [Image.words, List.length_append, p.length_matchers, p.length_combiners,
    p.length_counts, p.length_flags]
  rfl

/-! ## The words at their places -/

theorem slice_matchers : p.geometry.matcherRegion.slice p.compile.words = p.compile.matchers := by
  have split : p.compile.words = [] ++ p.compile.matchers ++
      (p.compile.combiners ++ p.compile.counts ++ p.compile.flags) := by
    simp only [Image.words, List.nil_append, List.append_assoc]
  rw [split]
  refine Region.slice_append rfl ?_
  rw [p.length_matchers]
  exact Nat.zero_add _

theorem slice_combiners :
    p.geometry.combinerRegion.slice p.compile.words = p.compile.combiners := by
  have split : p.compile.words = p.compile.matchers ++ p.compile.combiners ++
      (p.compile.counts ++ p.compile.flags) := List.append_assoc _ _ _
  rw [split]
  refine Region.slice_append p.length_matchers ?_
  rw [p.length_combiners]
  rfl

theorem slice_counts : p.geometry.countRegion.slice p.compile.words = p.compile.counts := by
  refine Region.slice_append ?_ ?_
  · rw [List.length_append, p.length_matchers, p.length_combiners]
    rfl
  · rw [p.length_counts]
    rfl

theorem slice_flags : p.geometry.flagRegion.slice p.compile.words = p.compile.flags := by
  rw [← List.append_nil p.compile.words]
  refine Region.slice_append ?_ ?_
  · rw [List.length_append, List.length_append, p.length_matchers, p.length_combiners,
      p.length_counts]
    rfl
  · rw [p.length_flags]
    rfl

theorem getElem?_words_matchers {i : Nat} (lt : i < p.geometry.matcherRegion.stop) :
    p.compile.words[i]? = p.compile.matchers[i]? := by
  have start : p.geometry.matcherRegion.start + i = i := Nat.zero_add i
  rw [← p.slice_matchers, Region.getElem?_slice (start.symm ▸ lt), start]

theorem getElem?_words_combiners {i : Nat} (lt : i < p.geometry.stepSlots) :
    p.compile.words[p.geometry.combinerRegion.start + i]? = p.compile.combiners[i]? := by
  rw [← p.slice_combiners, Region.getElem?_slice (Nat.add_lt_add_left lt _)]

theorem getElem?_words_counts {i : Nat} (lt : i < p.geometry.counterBits) :
    p.compile.words[p.geometry.countRegion.start + i]? = p.compile.counts[i]? := by
  rw [← p.slice_counts, Region.getElem?_slice (Nat.add_lt_add_left lt _)]

theorem getElem?_words_flags {i : Nat} (lt : i < 2) :
    p.compile.words[p.geometry.flagRegion.start + i]? = p.compile.flags[i]? := by
  rw [← p.slice_flags, Region.getElem?_slice (Nat.add_lt_add_left lt _)]

/-- The matcher word at its place is the one of the slot's step for the channels
and patterns of that place. -/
theorem getElem?_matcherIndex {s pair couple : Nat} (within : s < p.geometry.stepSlots)
    (pairLt : pair < p.geometry.channels / 2) (coupleLt : couple < p.geometry.patternSlots / 2) :
    p.compile.words[p.geometry.matcherIndex (p.geometry.stepSlots - 1 - s) pair couple]? =
      p.slots[s]?.bind (·.matcherWord? (2 * pair + 1, 2 * couple + 1)) := by
  obtain ⟨blocks, collected, sized, matchers⟩ := p.matchers_blocks
  have offsetLt := p.geometry.matcherOffset_lt pairLt coupleLt
  have start : p.geometry.matcherRegion.start = 0 := rfl
  have index : p.geometry.matcherIndex (p.geometry.stepSlots - 1 - s) pair couple <
      p.geometry.matcherRegion.stop := by
    have room : (p.geometry.stepSlots - 1 - s) * p.geometry.wordsPerStep +
        p.geometry.wordsPerStep ≤ p.geometry.stepSlots * p.geometry.wordsPerStep := by
      rw [← Nat.succ_mul]
      exact Nat.mul_le_mul_right _ (by omega)
    simp only [Geometry.matcherIndex, Geometry.matcherRegion]
    omega
  rw [p.getElem?_words_matchers index, matchers, Geometry.matcherIndex, start, Nat.zero_add,
    getElem?_flatten_of_blocks sized _ offsetLt, getElem?_of_mapM collected,
    p.getElem?_reverse_slots within]
  obtain ⟨step, stepAt⟩ : ∃ step, p.slots[s]? = some step :=
    ⟨_, List.getElem?_eq_getElem (by rw [p.length_slots]; exact within)⟩
  have fits := p.slots_fit step (List.mem_of_getElem? stepAt)
  obtain ⟨words, made⟩ := Option.isSome_iff_exists.1
    (Step.isSome_matcherWords? fits p.geometry.wordsPerStep)
  rw [stepAt, Option.bind_some, made, Option.bind_some]
  rw [Step.matcherWords?_eq fits] at made
  rw [getElem?_of_mapM made, Step.getElem?_matcherPlaces fits pairLt coupleLt, Option.bind_some,
    Option.bind_some]

/-- The combiner word at its place is the one of the slot's step. -/
theorem getElem?_combinerIndex {s : Nat} (within : s < p.geometry.stepSlots) :
    p.compile.words[p.geometry.combinerIndex (p.geometry.stepSlots - 1 - s)]? =
      p.slots[s]?.bind Step.combinerWord? := by
  rw [Geometry.combinerIndex, p.getElem?_words_combiners (by omega),
    getElem?_of_mapM p.combiners_collected, p.getElem?_reverse_slots within]

end Program

end LogicCapture
