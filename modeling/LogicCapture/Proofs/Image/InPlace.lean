import LogicCapture.Proofs.Image.Layout

/-!
# Compiling in place

The compiler of an engine starts from words that are all clear and overwrites them
slice by slice: for every step the block of its slot and its combiner, then the
count planes, then the flags. Here every access, difference and shift is checked.
`Program.compileInPlace?_eq` says that none of these checks ever fails, and that the
words are those of the image.
-/

namespace LogicCapture

/-! ## Checked accesses -/

/-- The difference, if there is one. -/
def less? (a b : Nat) : Option Nat := if b ≤ a then some (a - b) else none

/-- Changes the words of a region; none if they are not all there. -/
def changeSlice? (r : Region) (change : List UInt32 → Option (List UInt32))
    (words : List UInt32) : Option (List UInt32) :=
  if r.start ≤ r.stop ∧ r.stop ≤ words.length then do
    let slice ← change ((words.drop r.start).take (r.stop - r.start))
    return words.take r.start ++ slice ++ words.drop r.stop
  else none

theorem less?_of_le {a b : Nat} (le : b ≤ a) : less? a b = some (a - b) := if_pos le

/-- A region that lies between what is before and behind it is all there. -/
theorem changeSlice?_append {r : Region} {change : List UInt32 → Option (List UInt32)}
    {before behind new : List UInt32} (slice : List UInt32) (start : r.start = before.length)
    (stop : r.stop = before.length + slice.length) (changed : change slice = some new) :
    changeSlice? r change (before ++ (slice ++ behind)) = some (before ++ (new ++ behind)) := by
  have within : r.start ≤ r.stop ∧ r.stop ≤ (before ++ (slice ++ behind)).length := by
    simp only [List.length_append]
    omega
  have taken : (slice ++ behind).take (r.stop - r.start) = slice := by
    rw [start, stop, Nat.add_sub_cancel_left, List.take_left]
  have dropped : (before ++ (slice ++ behind)).drop r.stop = behind := by
    rw [stop, ← List.append_assoc, ← List.length_append, List.drop_left]
  rw [changeSlice?, if_pos within, dropped, start, List.drop_left, List.take_left, ← start, taken,
    changed]
  exact congrArg some (List.append_assoc _ _ _)

/-- Words that fill a slice leave nothing of it. -/
theorem overlay_of_length {words slice : List UInt32} (same : slice.length = words.length) :
    overlay words slice = words := by
  rw [overlay, List.drop_of_length_le (Nat.le_of_eq same), List.append_nil]

/-! ## The compiler -/

/-- Puts the matcher words of a step into the block of a slot. -/
def fillBlock? (g : Geometry) (step : Step) (slot : Nat) : List UInt32 → Option (List UInt32) :=
  let start := g.matcherRegion.start + slot * g.wordsPerStep
  changeSlice? ⟨start, start + g.wordsPerStep⟩ fun slice =>
    (overlay · slice) <$> step.matcherWords? slice.length

/-- Puts the combiner word of a step into its place. -/
def fillCombiner? (g : Geometry) (step : Step) (slot : Nat) : List UInt32 → Option (List UInt32) :=
  let place := g.combinerRegion.start + slot
  changeSlice? ⟨place, place + 1⟩ fun slice => (overlay [·] slice) <$> step.combinerWord?

/-- Fills the slot of step number `index`; the slots go from the last one down. -/
def fillSlot? (g : Geometry) (words : List UInt32) (step : Step) (index : Nat) :
    Option (List UInt32) := do
  let last ← less? g.stepSlots 1
  let slot ← less? last index
  let words ← fillBlock? g step slot words
  fillCombiner? g step slot words

namespace Program

variable (p : Program)

/-- The active steps, if the last of them is there. -/
def active? : Option (List Step) :=
  if p.last < p.steps.length then some (p.steps.take (p.last + 1)) else none

/-- The words of a program. Steps behind the last active one give way to the neutral
step. -/
def compileInPlace? : Option (List UInt32) := do
  let g := p.geometry
  let active ← p.active?
  let filled ← p.steps.zipIdx.foldlM (fun words (step, index) =>
    fillSlot? g words (if index ≤ p.last then step else Step.neutral g) index)
    (List.replicate g.totalWords 0)
  let counted ← changeSlice? g.countRegion
    (fun slice => (overlay · slice) <$>
      Planes.countWords? slice.length (active.map (·.target))) filled
  changeSlice? g.flagRegion (Planes.overlayFlags? · (active.map (·.contiguous))) counted

end Program

/-! ## One slot after the other -/

variable {g : Geometry} {step : Step} {slot : Nat} {before behind : List UInt32}

theorem fillBlock?_append {block room : List UInt32}
    (made : step.matcherWords? g.wordsPerStep = some block)
    (block_fills : block.length = g.wordsPerStep) (fits : room.length = g.wordsPerStep)
    (start : before.length = slot * g.wordsPerStep) :
    fillBlock? g step slot (before ++ (room ++ behind)) = some (before ++ (block ++ behind)) := by
  have begins : g.matcherRegion.start + slot * g.wordsPerStep = before.length := by
    rw [start]
    exact Nat.zero_add _
  have changed : (overlay · room) <$> step.matcherWords? room.length = some block := by
    rw [fits, made]
    exact congrArg some (overlay_of_length (fits.trans block_fills.symm))
  rw [fillBlock?]
  exact changeSlice?_append room begins (by rw [begins, fits]) changed

theorem fillCombiner?_append {word old : UInt32} (made : step.combinerWord? = some word)
    (place : before.length = g.combinerRegion.start + slot) :
    fillCombiner? g step slot (before ++ (old :: behind)) = some (before ++ (word :: behind)) := by
  have changed : (overlay [·] [old]) <$> step.combinerWord? = some [word] := by
    rw [made]
    exact congrArg some (overlay_of_length rfl)
  rw [fillCombiner?, ← List.singleton_append (x := old), ← List.singleton_append (x := word)]
  exact changeSlice?_append [old] place.symm (congrArg (· + 1) place.symm) changed

/-- The words once the slots of the steps `done` are filled: what is not filled yet
is clear. -/
def Filled (g : Geometry) (done : List Step) (words : List UInt32) : Prop :=
  ∃ blocks combiners,
    done.reverse.mapM (·.matcherWords? g.wordsPerStep) = some blocks ∧
    (∀ block ∈ blocks, block.length = g.wordsPerStep) ∧
    done.reverse.mapM Step.combinerWord? = some combiners ∧
    words = List.replicate ((g.stepSlots - done.length) * g.wordsPerStep) 0 ++
      (blocks.flatten ++ (List.replicate (g.stepSlots - done.length) 0 ++
        (combiners ++ List.replicate (g.counterBits + 2) 0)))

theorem filled_nil : Filled g [] (List.replicate g.totalWords 0) := by
  refine ⟨[], [], rfl, fun _ mem => absurd mem List.not_mem_nil, rfl, ?_⟩
  simp only [List.length_nil, Nat.sub_zero, List.flatten_nil, List.nil_append,
    List.replicate_append_replicate]
  congr 1
  simp only [Geometry.totalWords, Geometry.flagRegion, Geometry.countRegion,
    Geometry.combinerRegion, Geometry.matcherRegion]
  omega

theorem Filled.fillSlot {done : List Step} {words : List UInt32} (filled : Filled g done words)
    (fits : step.Fits g) (room : done.length < g.stepSlots) :
    ∃ after, fillSlot? g words step done.length = some after ∧
      Filled g (done ++ [step]) after := by
  obtain ⟨blocks, combiners, matched, sized, combined, rfl⟩ := filled
  obtain ⟨block, block_made⟩ := Option.isSome_iff_exists.1
    (Step.isSome_matcherWords? fits g.wordsPerStep)
  obtain ⟨combiner, combiner_made⟩ := Option.isSome_iff_exists.1
    (Step.isSome_combinerWord? (s := step) (by
      rw [fits.1]
      rcases g.patternSlots_eq with two | four <;> omega))
  have block_fills : block.length = g.wordsPerStep := Step.length_matcherWords fits block_made
  -- the slot is the last one that is still clear
  obtain ⟨slot, free⟩ : ∃ slot, g.stepSlots = done.length + slot + 1 :=
    ⟨g.stepSlots - done.length - 1, by omega⟩
  have last : less? g.stepSlots 1 = some (done.length + slot) := by
    rw [less?_of_le (by omega), free]
    rfl
  have number : less? (done.length + slot) done.length = some slot := by
    rw [less?_of_le (Nat.le_add_right _ _), Nat.add_sub_cancel_left]
  have left : g.stepSlots - done.length = slot + 1 := by omega
  have left_after : g.stepSlots - (done.length + 1) = slot := by omega
  have flattened : blocks.flatten.length = done.length * g.wordsPerStep := by
    rw [length_flatten_of_blocks sized, length_of_mapM matched, List.length_reverse]
  have region : g.combinerRegion.start =
      slot * g.wordsPerStep + (g.wordsPerStep + done.length * g.wordsPerStep) := by
    change g.stepSlots * g.wordsPerStep = _
    rw [free, Nat.succ_mul, Nat.add_mul]
    omega
  have clear_blocks : List.replicate ((slot + 1) * g.wordsPerStep) (0 : UInt32) =
      List.replicate (slot * g.wordsPerStep) 0 ++ List.replicate g.wordsPerStep 0 := by
    rw [List.replicate_append_replicate, Nat.succ_mul]
  have clear_combiners : List.replicate (slot + 1) (0 : UInt32) = List.replicate slot 0 ++ [0] := by
    rw [List.replicate_succ']
  refine ⟨_, ?_, block :: blocks, combiner :: combiners, ?_, ?_, ?_, rfl⟩
  · rw [fillSlot?, last, Option.bind_eq_bind, Option.bind_some, number, Option.bind_eq_bind,
      Option.bind_some, left, clear_blocks, List.append_assoc,
      fillBlock?_append block_made block_fills List.length_replicate List.length_replicate,
      Option.bind_some, clear_combiners, List.length_append, List.length_singleton, left_after]
    simp only [List.flatten_cons, List.append_assoc, List.cons_append, List.nil_append]
    simp only [← List.append_assoc _ _ (_ :: _)]
    refine fillCombiner?_append combiner_made ?_
    simp only [List.length_append, List.length_replicate]
    omega
  · rw [List.reverse_append, List.reverse_singleton, List.singleton_append, List.mapM_cons,
      block_made, matched]
    rfl
  · intro other mem
    rcases List.mem_cons.1 mem with rfl | old
    · exact block_fills
    · exact sized other old
  · rw [List.reverse_append, List.reverse_singleton, List.singleton_append, List.mapM_cons,
      combiner_made, combined]
    rfl

theorem Filled.fillSlots {done rest : List Step} {words : List UInt32}
    (filled : Filled g done words) (fit : ∀ step ∈ rest, step.Fits g)
    (room : done.length + rest.length ≤ g.stepSlots) :
    ∃ after, (rest.zipIdx done.length).foldlM
        (fun words item => fillSlot? g words item.1 item.2) words = some after ∧
      Filled g (done ++ rest) after := by
  induction rest generalizing done words with
  | nil => exact ⟨words, rfl, (List.append_nil done).symm ▸ filled⟩
  | cons step rest ih =>
    rw [List.length_cons] at room
    obtain ⟨between, first, one_more⟩ := filled.fillSlot (fit step List.mem_cons_self) (by omega)
    obtain ⟨after, others, all⟩ := ih one_more (fun s mem => fit s (List.mem_cons_of_mem step mem))
      (by rw [List.length_append, List.length_singleton]; omega)
    refine ⟨after, ?_, ?_⟩
    · rw [List.zipIdx_cons, List.foldlM_cons, first, Option.bind_eq_bind, Option.bind_some]
      rwa [List.length_append, List.length_singleton] at others
    · rwa [List.append_assoc, List.singleton_append] at all

/-! ## The whole image -/

namespace Program

variable (p : Program)

theorem active?_eq : p.active? = some p.active :=
  if_pos (p.steps_length ▸ p.last_lt)

/-- The slots hold the steps, but for those behind the last active one. -/
theorem zipIdx_slots : p.slots.zipIdx = p.steps.zipIdx.map fun item =>
    (if item.2 ≤ p.last then item.1 else Step.neutral p.geometry, item.2) := by
  apply List.ext_getElem?
  intro i
  rw [List.getElem?_zipIdx, List.getElem?_map, List.getElem?_zipIdx, Nat.zero_add]
  rcases Nat.lt_or_ge p.last i with behind | active
  · rcases Nat.lt_or_ge i p.geometry.stepSlots with within | beyond
    · have stored : i < p.steps.length := by
        rw [p.steps_length]
        exact within
      have old : p.steps[i]? = some p.steps[i] := List.getElem?_eq_getElem stored
      rw [p.getElem?_slots_of_lt behind within, old]
      simp only [Option.map_some, if_neg (Nat.not_le_of_lt behind)]
    · rw [List.getElem?_eq_none (by rw [p.length_slots]; exact beyond),
        List.getElem?_eq_none (by rw [p.steps_length]; exact beyond)]
      rfl
  · rw [p.getElem?_slots_of_le active]
    cases p.steps[i]? with
    | none => rfl
    | some step => simp only [Option.map_some, if_pos active]

/-- With all slots filled the first two regions are those of the image. -/
theorem filled_slots {words : List UInt32} (filled : Filled p.geometry p.slots words) :
    words = p.compile.matchers ++ p.compile.combiners ++
      List.replicate (p.geometry.counterBits + 2) 0 := by
  obtain ⟨blocks, combiners, matched, -, combined, rfl⟩ := filled
  obtain ⟨blocks', matched', -, matchers⟩ := p.matchers_blocks
  cases matched.symm.trans matched'
  cases combined.symm.trans p.combiners_collected
  rw [p.length_slots, Nat.sub_self, Nat.zero_mul, matchers]
  simp only [List.replicate_zero, List.nil_append, List.append_assoc]

theorem countRegion_start :
    p.geometry.countRegion.start = (p.compile.matchers ++ p.compile.combiners).length := by
  rw [List.length_append, p.length_matchers, p.length_combiners]
  rfl

theorem flagRegion_start : p.geometry.flagRegion.start =
    (p.compile.matchers ++ p.compile.combiners ++ p.compile.counts).length := by
  rw [List.length_append, ← p.countRegion_start, p.length_counts]
  rfl

theorem countRegion_filled (behind : List UInt32) :
    changeSlice? p.geometry.countRegion
      (fun slice => (overlay · slice) <$>
        Planes.countWords? slice.length (p.active.map (·.target)))
      (p.compile.matchers ++ p.compile.combiners ++
        (List.replicate p.geometry.counterBits 0 ++ behind)) =
      some (p.compile.matchers ++ p.compile.combiners ++ (p.compile.counts ++ behind)) := by
  refine changeSlice?_append _ p.countRegion_start ?_ ?_
  · rw [← p.countRegion_start, List.length_replicate]
    rfl
  · rw [List.length_replicate, p.counts_collected]
    exact congrArg some (overlay_of_length (by rw [List.length_replicate, p.length_counts]))

theorem flagRegion_filled :
    changeSlice? p.geometry.flagRegion (Planes.overlayFlags? · (p.active.map (·.contiguous)))
      (p.compile.matchers ++ p.compile.combiners ++ p.compile.counts ++
        (List.replicate 2 0 ++ [])) = some p.compile.words := by
  have flags_length := p.length_flags
  have changed : Planes.overlayFlags? (List.replicate 2 0) (p.active.map (·.contiguous)) =
      some p.compile.flags := by
    rw [Planes.overlayFlags?, p.flags_collected, Option.bind_eq_bind, Option.bind_some,
      if_neg (by rw [List.length_replicate, flags_length]; decide),
      overlay_of_length (by rw [List.length_replicate, flags_length])]
  refine (changeSlice?_append _ p.flagRegion_start ?_ changed).trans ?_
  · rw [← p.flagRegion_start]
    rfl
  · rw [List.append_nil]
    rfl

/-- To compile in place never fails: no access is out of range, no difference is
below zero and no bit is beyond its word. What comes out is the image. -/
theorem compileInPlace?_eq : p.compileInPlace? = some p.compile.words := by
  have room : ([] : List Step).length + p.slots.length ≤ p.geometry.stepSlots :=
    Nat.le_of_eq ((Nat.zero_add _).trans p.length_slots)
  obtain ⟨filled, folded, all⟩ := (filled_nil (g := p.geometry)).fillSlots p.slots_fit room
  rw [List.length_nil, zipIdx_slots, List.foldlM_map] at folded
  rw [compileInPlace?, active?_eq, Option.bind_eq_bind, Option.bind_some, folded,
    Option.bind_eq_bind, Option.bind_some, p.filled_slots all, ← List.replicate_append_replicate,
    countRegion_filled, Option.bind_some, ← List.append_assoc,
    ← List.append_nil (List.replicate 2 0), flagRegion_filled]

end Program

end LogicCapture
