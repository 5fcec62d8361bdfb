import LogicCapture.Proofs.Engine.Lookup
import LogicCapture.Proofs.Image.Transposition
import LogicCapture.Proofs.Trigger.Editing

/-!
# Count planes in place

The count words are made in the slice that takes them. It is cleared, and then every
step adds its counter state: bit by bit, each to the plane of that bit. Whatever was
in the slice before, what is in it afterwards are the count words of the image
(`Planes.fillCounts?_eq`). The planes are an exact transposition of the counter
states, so the engine reads back that of every active step (`Program.counterState_eq`),
and nothing for the steps behind.
-/

namespace LogicCapture

/-- What is there for all items is collected in their order. -/
theorem mapM_eq_some_map {α β : Type} {f : α → Option β} {g : α → β} {items : List α}
    (there : ∀ item ∈ items, f item = some (g item)) : items.mapM f = some (items.map g) := by
  induction items with
  | nil => rfl
  | cons item rest ih =>
    rw [List.mapM_cons, there item List.mem_cons_self,
      ih fun other mem => there other (List.mem_cons_of_mem item mem)]
    rfl

namespace Planes

/-! ## The loops -/

/-- Adds one bit of the counter state of step `place` to the plane of that bit. The
plane of the lowest bit is the last one. -/
def addBit? (state : UInt16) (place : Nat) (planes : List UInt32) (bit : Nat) :
    Option (List UInt32) := do
  if ← counterBit? state bit then
    let last ← less? planes.length 1
    let index ← less? last bit
    let word ← planes[index]?
    return planes.set index (word ||| (← oneHot? place))
  return planes

/-- Adds the counter state of step `place`, one bit per plane. -/
def addState? (planes : List UInt32) (item : UInt16 × Nat) : Option (List UInt32) :=
  (List.range planes.length).foldlM (addBit? item.1 item.2) planes

/-- Clears a slice and adds the counter states of all steps. -/
def fillCounts? (targets : List UInt16) (slice : List UInt32) : Option (List UInt32) :=
  targets.zipIdx.foldlM addState? (List.replicate slice.length 0)

/-! ## Planes by their bits -/

/-- Planes given by their bits, the highest bit first. -/
def downward (bits : Nat) (plane : Nat → UInt32) : List UInt32 :=
  (List.range bits).reverse.map plane

variable {bits bit place : Nat} {plane : Nat → UInt32} {hot : UInt32} {state : UInt16}

theorem length_downward : (downward bits plane).length = bits := by
  rw [downward, List.length_map, List.length_reverse, List.length_range]

/-- Number `i` of the planes is the one for bit `bits - 1 - i`. -/
theorem getElem?_downward {i : Nat} (lt : i < bits) :
    (downward bits plane)[i]? = some (plane (bits - 1 - i)) := by
  rw [downward, List.getElem?_map, List.getElem?_reverse (by rwa [List.length_range]),
    List.length_range, List.getElem?_range (by omega), Option.map_some]

theorem set_downward (lt : bit < bits) (word : UInt32) :
    (downward bits plane).set (bits - 1 - bit) word =
      downward bits (Function.update plane bit word) := by
  apply List.ext_getElem?
  intro i
  rcases Nat.lt_or_ge i bits with within | beyond
  · rw [List.getElem?_set, length_downward, getElem?_downward within, getElem?_downward within]
    by_cases here : bits - 1 - bit = i
    · have same : bits - 1 - i = bit := by omega
      rw [if_pos here, if_pos (by omega), same, Function.update_self]
    · have other : bits - 1 - i ≠ bit := by omega
      rw [if_neg here, Function.update_of_ne other]
  · rw [List.getElem?_eq_none (by rwa [List.length_set, length_downward]),
      List.getElem?_eq_none (by rwa [length_downward])]

/-! ## One step -/

/-- The plane with the bit of step `place` set, if it is to be set. -/
def marked (set : Bool) (hot word : UInt32) : UInt32 := if set then word ||| hot else word

theorem addBit?_downward (narrow : bits ≤ 16) (lt : bit < bits) (there : oneHot? place = some hot) :
    addBit? state place (downward bits plane) bit =
      some (downward bits (Function.update plane bit
        (marked (state.toNat.testBit bit) hot (plane bit)))) := by
  have known : counterBit? state bit = some (state.toNat.testBit bit) := if_pos (by omega)
  rw [addBit?, known, Option.bind_eq_bind, Option.bind_some]
  cases state.toNat.testBit bit with
  | true =>
    have last : less? bits 1 = some (bits - 1) := less?_of_le (by omega)
    have index : less? (bits - 1) bit = some (bits - 1 - bit) := less?_of_le (by omega)
    have word : (downward bits plane)[bits - 1 - bit]? = some (plane bit) := by
      rw [getElem?_downward (by omega), show bits - 1 - (bits - 1 - bit) = bit by omega]
    simp only [if_true, length_downward, last, index, word, there, Option.bind_eq_bind,
      Option.bind_some]
    exact congrArg some (set_downward lt _)
  | false =>
    rw [if_neg Bool.false_ne_true, marked, if_neg Bool.false_ne_true, Function.update_eq_self]
    rfl

/-- After `n` bits of a state the planes of these bits are marked. -/
theorem addBits_downward {n : Nat} (narrow : bits ≤ 16) (le : n ≤ bits)
    (there : oneHot? place = some hot) :
    (List.range n).foldlM (addBit? state place) (downward bits plane) =
      some (downward bits fun b =>
        if b < n then marked (state.toNat.testBit b) hot (plane b) else plane b) := by
  induction n with
  | zero => rfl
  | succ n ih =>
    rw [List.range_succ, List.foldlM_append, ih (by omega), Option.bind_eq_bind, Option.bind_some,
      List.foldlM_cons, addBit?_downward narrow le there, if_neg (Nat.lt_irrefl n)]
    refine congrArg (some <| downward bits ·) (funext fun b => ?_)
    rcases Nat.lt_trichotomy b n with before | rfl | behind
    · rw [Function.update_of_ne (by omega), if_pos before, if_pos (by omega)]
    · rw [Function.update_self, if_pos (by omega)]
    · rw [Function.update_of_ne (by omega), if_neg (by omega), if_neg (by omega)]

theorem addState?_downward (narrow : bits ≤ 16) (there : oneHot? place = some hot) :
    addState? (downward bits plane) (state, place) =
      some (downward bits fun b =>
        if b < bits then marked (state.toNat.testBit b) hot (plane b) else plane b) := by
  rw [addState?, length_downward]
  exact addBits_downward narrow (Nat.le_refl bits) there

/-! ## All steps -/

/-- The loop over the steps makes every plane as it is made alone. -/
theorem addStates_downward {targets : List UInt16} {index : Nat} (narrow : bits ≤ 16)
    (few : index + targets.length ≤ 32) (plane : Nat → UInt32) :
    ∃ filled, (targets.zipIdx index).foldlM addState? (downward bits plane) =
        some (downward bits filled) ∧
      ∀ b < bits, (targets.zipIdx index).foldlM (fun word (state, place) => do
        if ← counterBit? state b then
          return word ||| (← oneHot? place)
        return word) (plane b) = some (filled b) := by
  induction targets generalizing index plane with
  | nil => exact ⟨plane, rfl, fun _ _ => rfl⟩
  | cons state rest ih =>
    rw [List.length_cons] at few
    obtain ⟨hot, there⟩ := Option.isSome_iff_exists.1
      (isSome_oneHot?.2 (show index < 32 by omega))
    have fewer : index + 1 + rest.length ≤ 32 := by omega
    obtain ⟨filled, added, alone⟩ := ih fewer fun b =>
      if b < bits then marked (state.toNat.testBit b) hot (plane b) else plane b
    refine ⟨filled, ?_, fun b lt => ?_⟩
    · rw [List.zipIdx_cons, List.foldlM_cons, addState?_downward narrow there, Option.bind_eq_bind,
        Option.bind_some, added]
    · have known : counterBit? state b = some (state.toNat.testBit b) := if_pos (by omega)
      rw [← alone b lt, if_pos lt, List.zipIdx_cons, List.foldlM_cons]
      simp only [known, there, Option.bind_eq_bind, Option.bind_some]
      cases state.toNat.testBit b <;> rfl

/-- To make the count words in place never fails: no plane is out of range and no
bit is beyond its word. What was in the slice before makes no difference. -/
theorem fillCounts?_eq {targets : List UInt16} {slice : List UInt32} (narrow : slice.length ≤ 16)
    (few : targets.length ≤ 32) :
    fillCounts? targets slice = countWords? slice.length targets := by
  have clear : List.replicate slice.length 0 = downward slice.length fun _ => 0 := by
    rw [downward, List.map_const', List.length_reverse, List.length_range]
  obtain ⟨filled, added, alone⟩ := addStates_downward narrow
    (show 0 + targets.length ≤ 32 by omega) fun _ => 0
  have planes : ∀ bit ∈ (List.range slice.length).reverse,
      plane? (counterBit? · bit) 0 targets = some (filled bit) := fun bit mem =>
    alone bit (List.mem_range.1 (List.mem_reverse.1 mem))
  rw [fillCounts?, clear, added, countWords?, mapM_eq_some_map planes, downward]

end Planes

/-! ## Reading back -/

/-- The counter state of step number `step` in the count words, the first of which
has the highest bits. -/
def Engine.counterState (e : Engine) (step : Nat) : Nat :=
  bitsBelow 16 fun bit => e.bitAt (e.geometry.countRegion.start + (15 - bit)) step

namespace Program

variable (p : Program)

/-- The bit of a step in a count word is that bit of its counter state. -/
theorem bitAt_counts {bit : Nat} (lt : bit < 16) (s : Nat) :
    p.engine.bitAt (p.geometry.countRegion.start + (15 - bit)) s =
      p.active[s]?.any (·.target.toNat.testBit bit) := by
  have width := p.geometry.counterBits_eq
  have collected := p.counts_collected
  rw [width] at collected
  obtain ⟨word, wordAt, bits⟩ := Planes.testBit_countWords collected lt (Nat.le_refl 16)
  have place : p.compile.words[p.geometry.countRegion.start + (15 - bit)]? = some word := by
    rw [p.getElem?_words_counts (by omega)]
    exact wordAt
  rw [Engine.bitAt, p.engine_words, place, Option.any_some, bits s, List.getElem?_map,
    Option.any_map]

theorem counterState_eq (s : Nat) :
    p.engine.counterState s = (p.active[s]?.map (·.target.toNat)).getD 0 := by
  rw [Engine.counterState, p.engine_geometry,
    bitsBelow_congr fun bit lt => p.bitAt_counts lt s]
  cases p.active[s]? with
  | none => exact bitsBelow_false 16
  | some step => exact bitsBelow_testBit step.target

/-- The flag words at their places: the last active step alone, and the contiguous
steps. -/
theorem flags_at_places :
    p.compile.words[p.geometry.flagRegion.start]? = some (1 <<< UInt32.ofNat p.last) ∧
      ∃ mask, p.compile.words[p.geometry.flagRegion.start + 1]? = some mask ∧
        ∀ s, mask.toNat.testBit s = p.active[s]?.any (·.contiguous) := by
  have few : p.last < 32 := Nat.lt_of_lt_of_le p.last_lt p.geometry.stepSlots_le
  have hot : oneHot? p.last = some (1 <<< UInt32.ofNat p.last) := if_pos few
  have collected := p.flags_collected
  obtain ⟨last, mask, flags, -, bits⟩ := Planes.flagWords_bits collected
  rw [Planes.flagWords?, List.length_map, p.length_active, Nat.add_sub_cancel, hot] at collected
  obtain ⟨first, lastAt, collected⟩ := Option.bind_eq_some_iff.1 collected
  obtain ⟨other, -, made⟩ := Option.bind_eq_some_iff.1 collected
  obtain rfl : last = first := (List.cons.inj (flags.symm.trans (Option.some.inj made).symm)).1
  refine ⟨?_, mask, ?_, fun s => ?_⟩
  · rw [← Nat.add_zero p.geometry.flagRegion.start, p.getElem?_words_flags Nat.two_pos, flags, lastAt]
    rfl
  · rw [p.getElem?_words_flags Nat.one_lt_two, flags]
    rfl
  · rw [bits, List.getElem?_map]
    cases p.active[s]? with
    | none => rfl
    | some step =>
      rw [Option.map_some, Option.any_some]
      cases step.contiguous <;> rfl

end Program

/-- The count words and the flag words are an exact transposition of the steps. The
count words can be made in any slice, whatever was in it before: the plane of bit
`bit` has that bit of the counter state of every step, and no other bits. So the
engine reads the counter states of the active steps of a program back, and none for
the steps behind them. The flag words have the last active step alone, and the active
steps that are contiguous. -/
theorem Planes.exact_transposition {steps : List Step} {slice : List UInt32}
    (few : steps.length ≤ 32) (narrow : slice.length ≤ 16) (p : Program) :
    (∃ words, fillCounts? (steps.map (·.target)) slice = some words ∧
      countWords? slice.length (steps.map (·.target)) = some words ∧
      words.length = slice.length ∧
      ∀ bit < slice.length, ∃ word, words[slice.length - 1 - bit]? = some word ∧
        ∀ s, word.toNat.testBit s =
          steps[s]?.any fun step => (MatchCounter.encode step.count).toNat.testBit bit) ∧
    (∀ s ≤ p.last, ∃ step, p.steps[s]? = some step ∧
      p.engine.counterState s = (MatchCounter.encode step.count).toNat) ∧
    (∀ s, p.last < s → p.engine.counterState s = 0) ∧
    p.engine.words[p.geometry.flagRegion.start]? = some (1 <<< UInt32.ofNat p.last) ∧
    ∃ mask, p.engine.words[p.geometry.flagRegion.start + 1]? = some mask ∧
      ∀ s, mask.toNat.testBit s = true ↔
        s ≤ p.last ∧ ∃ step, p.steps[s]? = some step ∧ step.contiguous = true := by
  obtain ⟨flag, mask, maskAt, contiguous⟩ := p.flags_at_places
  refine ⟨?_, fun s le => ?_, fun s lt => ?_, flag, mask, maskAt, fun s => ?_⟩
  · have few' : (steps.map (·.target)).length ≤ 32 := by rwa [List.length_map]
    obtain ⟨words, made⟩ := Option.isSome_iff_exists.1 (isSome_countWords? narrow few')
    refine ⟨words, (fillCounts?_eq narrow few').trans made, made, ?_, fun bit lt => ?_⟩
    · rw [length_of_mapM made, List.length_reverse, List.length_range]
    · obtain ⟨word, wordAt, bits⟩ := testBit_countWords made lt narrow
      refine ⟨word, wordAt, fun s => ?_⟩
      rw [bits, List.getElem?_map, Option.any_map]
      rfl
  · have stored : s < p.steps.length := by
      rw [p.steps_length]
      exact Nat.lt_of_le_of_lt le p.last_lt
    have stepAt : p.steps[s]? = some p.steps[s] := List.getElem?_eq_getElem stored
    refine ⟨p.steps[s], stepAt, ?_⟩
    rw [p.counterState_eq, Program.getElem?_active le, stepAt]
    rfl
  · rw [p.counterState_eq, Program.getElem?_active_of_lt lt]
    rfl
  · rw [contiguous]
    rcases Nat.lt_or_ge p.last s with behind | active
    · rw [Program.getElem?_active_of_lt behind]
      simp only [Option.any_none, Bool.false_eq_true, false_iff]
      exact fun within => absurd within.1 (Nat.not_le_of_lt behind)
    · rw [Program.getElem?_active active, Option.any_eq_true]
      exact ⟨fun found => ⟨active, found⟩, fun found => found.2⟩

/-- Two steps, the second with a count of two, over words that are not clear; and a
program whose second step waits for three matches. -/
theorem Planes.exact_transposition_secondStep :
    let steps : List Step := [{ conditions := [] }, { conditions := [], count := 2 }]
    let slice : List UInt32 := List.replicate 16 0xDEADBEEF
    steps.length ≤ 32 ∧ slice.length ≤ 16 ∧
      (∃ words, fillCounts? (steps.map (·.target)) slice = some words ∧
        ∃ word, words[2]? = some word ∧ word.toNat.testBit 1 = true ∧
          word.toNat.testBit 0 = false) ∧
      Program.edited.engine.counterState 1 = 0x5A00 ∧
      Program.edited.engine.counterState 2 = 0 := by
  intro steps slice
  have few : steps.length ≤ 32 := by decide
  have narrow : slice.length ≤ 16 := by decide
  obtain ⟨⟨words, filled, -, -, planes⟩, active, behind, -⟩ :=
    exact_transposition few narrow Program.edited
  obtain ⟨word, wordAt, bits⟩ := planes 13 (by decide)
  obtain ⟨step, stepAt, state⟩ := active 1 (by decide)
  obtain rfl : Program.thirdMatch = step := Option.some.inj stepAt
  refine ⟨few, narrow, ⟨words, filled, word, wordAt, (bits 1).trans ?_, (bits 0).trans ?_⟩,
    state, behind 2 (by decide)⟩
  · decide
  · decide

end LogicCapture
