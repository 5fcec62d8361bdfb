import LogicCapture.Proofs.Image.Layout

/-!
# Matcher words of any step

A step on its own may have any number of patterns of any width. Its matcher words go
through the pairs of channels of its first pattern from the top down, and for every
pair through the couples of patterns from the highest down, so word number `j` is that
of one pair and one couple told by `j` alone. `Step.overlayMatchers?_exact` says which
words a slice holds once they are laid over it, and when there are none: one of the
words that the slice has room for asks a pattern for a channel that it does not have.
-/

namespace LogicCapture

theorem mapM_eq_none_iff {α β : Type} {f : α → Option β} {items : List α} :
    items.mapM f = none ↔ ∃ item ∈ items, f item = none := by
  constructor
  · intro missing
    refine Classical.byContradiction fun none_fails => ?_
    have present : (items.mapM f).isSome := isSome_mapM fun item mem =>
      Option.isSome_iff_ne_none.2 fun failed => none_fails ⟨item, mem, failed⟩
    rw [missing] at present
    cases present
  · rintro ⟨item, mem, failed⟩
    cases collected : items.mapM f with
    | none => rfl
    | some results =>
      obtain ⟨i, at_i⟩ := List.mem_iff_getElem?.1 mem
      have within : i < results.length := by
        rw [length_of_mapM collected]
        exact (List.getElem?_eq_some_iff.1 at_i).1
      have result := getElem?_of_mapM collected i
      rw [at_i, Option.bind_some, failed, List.getElem?_eq_none_iff] at result
      exact absurd within (Nat.not_lt_of_le result)

namespace Step

/-! ## Places by number -/

/-- How many matcher words the step has. -/
def matcherCount (s : Step) : Nat := s.leadWidth / 2 * (s.conditions.length / 2)

/-- The upper channel of matcher word number `j`. -/
def channelAt (s : Step) (j : Nat) : Nat :=
  s.leadWidth - 1 - 2 * (j / (s.conditions.length / 2))

/-- The upper pattern of matcher word number `j`. -/
def conditionAt (s : Step) (j : Nat) : Nat :=
  s.conditions.length - 1 - 2 * (j % (s.conditions.length / 2))

variable {s : Step} {j : Nat}

theorem couples_pos (lt : j < s.matcherCount) : 0 < s.conditions.length / 2 := by
  rcases Nat.eq_zero_or_pos (s.conditions.length / 2) with none | some
  · rw [matcherCount, none, Nat.mul_zero] at lt
    exact absurd lt (Nat.not_lt_zero j)
  · exact some

theorem pair_lt (lt : j < s.matcherCount) :
    j / (s.conditions.length / 2) < s.leadWidth / 2 :=
  (Nat.div_lt_iff_lt_mul (couples_pos lt)).2 lt

theorem couple_lt (lt : j < s.matcherCount) :
    j % (s.conditions.length / 2) < s.conditions.length / 2 :=
  Nat.mod_lt j (couples_pos lt)

theorem conditionAt_lt (lt : j < s.matcherCount) : s.conditionAt j < s.conditions.length := by
  have couple := couple_lt lt
  unfold conditionAt
  omega

/-- Word number `j` stands in the block of its pair of channels. -/
theorem getElem?_place (lt : j < s.matcherCount) :
    s.matcherPlaces[j]? = some (s.channelAt j, s.conditionAt j) := by
  have number : j / (s.conditions.length / 2) * (s.conditions.length / 2) +
      j % (s.conditions.length / 2) = j := Nat.div_add_mod' j _
  have place := getElem?_places (pair_lt lt) (couple_lt lt)
  rwa [number] at place

/-! ## Words by number -/

/-- The table of one pattern for the channels of matcher word number `j`. -/
def HalfAt (s : Step) (j pattern : Nat) (half : UInt16) : Prop :=
  ∃ c upper lower, s.conditions[pattern]? = some c ∧
    c.pattern.channel? (s.channelAt j) = some upper ∧
    c.pattern.channel? (s.channelAt j - 1) = some lower ∧ half = pairTable upper lower

/-- Matcher word number `j`: the upper pattern has the upper half. -/
def WordAt (s : Step) (j : Nat) (word : UInt32) : Prop :=
  ∃ high low, s.HalfAt j (s.conditionAt j) high ∧ s.HalfAt j (s.conditionAt j - 1) low ∧
    word = high.toUInt32 <<< 16 ||| low.toUInt32

/-- A pattern does not reach up to the channels of matcher word number `j`. -/
def NarrowAt (s : Step) (j pattern : Nat) : Prop :=
  ∃ c, s.conditions[pattern]? = some c ∧ c.pattern.width ≤ s.channelAt j

theorem halfWord?_eq_some_iff {pattern : Nat} {half : UInt16} :
    s.halfWord? (s.channelAt j) pattern = some half ↔ s.HalfAt j pattern half := by
  simp only [halfWord?, HalfAt, Option.bind_eq_bind, Option.bind_eq_some_iff, Option.pure_def,
    Option.some.injEq, eq_comm (a := half), exists_and_left]

theorem halfWord?_eq_none_iff {pattern : Nat} (exists_pattern : pattern < s.conditions.length) :
    s.halfWord? (s.channelAt j) pattern = none ↔ s.NarrowAt j pattern := by
  have found := List.getElem?_eq_getElem exists_pattern
  generalize s.conditions[pattern] = c at found
  have narrow : s.NarrowAt j pattern ↔ c.pattern.width ≤ s.channelAt j := by
    rw [NarrowAt, found]
    simp only [Option.some.injEq, exists_eq_left']
  have reaches {channel : Nat} :
      c.pattern.channel? channel = none ↔ c.pattern.width ≤ channel := by
    rw [← Option.not_isSome_iff_eq_none, Pattern.isSome_channel?, Nat.not_lt]
  rw [narrow, ← reaches, halfWord?, found, Option.bind_eq_bind, Option.bind_some]
  cases upper : c.pattern.channel? (s.channelAt j) with
  | none => exact iff_of_true rfl rfl
  | some symbol =>
    -- the channel below is within the pattern too
    have within : s.channelAt j < c.pattern.width :=
      Pattern.isSome_channel?.1 (upper ▸ rfl)
    have below : (c.pattern.channel? (s.channelAt j - 1)).isSome :=
      Pattern.isSome_channel?.2 (Nat.lt_of_le_of_lt (Nat.sub_le _ 1) within)
    obtain ⟨lower, lowerAt⟩ := Option.isSome_iff_exists.1 below
    rw [lowerAt]
    exact iff_of_false (Option.some_ne_none _) (Option.some_ne_none _)

theorem matcherWord?_eq_some_iff {word : UInt32} :
    s.matcherWord? (s.channelAt j, s.conditionAt j) = some word ↔ s.WordAt j word := by
  simp only [matcherWord?, WordAt, Option.bind_eq_bind, Option.bind_eq_some_iff, Option.pure_def,
    Option.some.injEq, halfWord?_eq_some_iff, joinTables, eq_comm (a := word), exists_and_left]

theorem matcherWord?_eq_none_iff (lt : j < s.matcherCount) :
    s.matcherWord? (s.channelAt j, s.conditionAt j) = none ↔
      s.NarrowAt j (s.conditionAt j) ∨ s.NarrowAt j (s.conditionAt j - 1) := by
  have upper := conditionAt_lt lt
  rw [← halfWord?_eq_none_iff upper,
    ← halfWord?_eq_none_iff (Nat.lt_of_le_of_lt (Nat.sub_le _ 1) upper), matcherWord?]
  cases s.halfWord? (s.channelAt j) (s.conditionAt j) with
  | none => exact iff_of_true rfl (.inl rfl)
  | some high =>
    cases s.halfWord? (s.channelAt j) (s.conditionAt j - 1) with
    | none => exact iff_of_true rfl (.inr rfl)
    | some low =>
      exact iff_of_false (Option.some_ne_none _)
        (not_or_intro (Option.some_ne_none _) (Option.some_ne_none _))

/-! ## Words over a slice -/

variable {slice out : List UInt32}

/-- The words that the slice has room for are those of the first places. -/
theorem getElem?_matcherWords {words : List UInt32} {room : Nat}
    (made : s.matcherWords? room = some words) (lt : j < min s.matcherCount room) :
    words[j]? = s.matcherWord? (s.channelAt j, s.conditionAt j) := by
  obtain ⟨counted, roomy⟩ := Nat.lt_min.1 lt
  rw [matcherWords?] at made
  rw [getElem?_of_mapM made, List.getElem?_take_of_lt roomy, getElem?_place counted,
    Option.bind_some]

theorem length_of_matcherWords {words : List UInt32} {room : Nat}
    (made : s.matcherWords? room = some words) : words.length = min s.matcherCount room := by
  rw [matcherWords?] at made
  rw [length_of_mapM made, List.length_take, length_places, ← matcherCount, Nat.min_comm]

/-- There are no words at all if one of those that there is room for asks a pattern for a
channel it does not have. -/
theorem overlayMatchers?_eq_none_iff :
    s.overlayMatchers? slice = none ↔ ∃ j < min s.matcherCount slice.length,
      s.NarrowAt j (s.conditionAt j) ∨ s.NarrowAt j (s.conditionAt j - 1) := by
  have lays : s.overlayMatchers? slice = none ↔ s.matcherWords? slice.length = none := by
    rw [overlayMatchers?]
    cases s.matcherWords? slice.length with
    | none => exact iff_of_true rfl rfl
    | some words => exact iff_of_false (Option.some_ne_none _) (Option.some_ne_none _)
  rw [lays, matcherWords?, mapM_eq_none_iff]
  constructor
  · rintro ⟨place, mem, failed⟩
    obtain ⟨j, at_j⟩ := List.mem_iff_getElem?.1 mem
    obtain ⟨within, -⟩ := List.getElem?_eq_some_iff.1 at_j
    rw [List.length_take, length_places, ← matcherCount] at within
    obtain ⟨roomy, counted⟩ := Nat.lt_min.1 within
    rw [List.getElem?_take_of_lt roomy, getElem?_place counted] at at_j
    cases at_j
    exact ⟨j, Nat.lt_min.2 ⟨counted, roomy⟩, (matcherWord?_eq_none_iff counted).1 failed⟩
  · rintro ⟨j, lt, narrow⟩
    obtain ⟨counted, roomy⟩ := Nat.lt_min.1 lt
    have at_j := getElem?_place counted
    rw [← List.getElem?_take_of_lt roomy] at at_j
    exact ⟨_, List.mem_of_getElem? at_j, (matcherWord?_eq_none_iff counted).2 narrow⟩

theorem of_overlayMatchers? (laid : s.overlayMatchers? slice = some out) :
    ∃ words, s.matcherWords? slice.length = some words ∧ out = words ++ slice.drop words.length := by
  obtain ⟨words, made, rest⟩ := Option.bind_eq_some_iff.1 laid
  exact ⟨words, made, (Option.some.inj rest).symm⟩

/-- What a slice holds after the matcher words of a step were laid over it. -/
structure Overlaid (s : Step) (slice out : List UInt32) : Prop where
  length : out.length = slice.length
  /-- At the front are the words in order, as far as there is room for them. -/
  words : ∀ j < min s.matcherCount slice.length, ∃ word, out[j]? = some word ∧ s.WordAt j word
  /-- The rest is as before. -/
  kept : ∀ j, min s.matcherCount slice.length ≤ j → out[j]? = slice[j]?

theorem overlaid (laid : s.overlayMatchers? slice = some out) : s.Overlaid slice out := by
  obtain ⟨words, made, rfl⟩ := of_overlayMatchers? laid
  have length := length_of_matcherWords made
  refine ⟨?_, fun j lt => ?_, fun j le => ?_⟩
  · rw [List.length_append, List.length_drop, length]
    omega
  · have within : j < words.length := length ▸ lt
    have found := List.getElem?_eq_getElem within
    refine ⟨words[j], ?_, matcherWord?_eq_some_iff.1 ?_⟩
    · rw [List.getElem?_append_left within, found]
    · rw [← getElem?_matcherWords made lt, found]
  · rw [← length] at le
    rw [List.getElem?_append_right le, List.getElem?_drop, Nat.add_sub_of_le le]

theorem matcherCount_eq {g : Geometry} (fits : s.Fits g) : s.matcherCount = g.wordsPerStep := by
  rw [matcherCount, ← length_places, length_matcherPlaces fits]

/-- Whatever the step and the slice, the words that end up in the slice are told by their
numbers, and the rest of the slice is left alone. There are none exactly if a pattern is
too narrow for one of them. Steps that fit an engine have them all, as many as it holds
for a step. -/
theorem overlayMatchers?_exact (s : Step) (slice : List UInt32) :
    (s.overlayMatchers? slice = none ↔ ∃ j < min s.matcherCount slice.length,
      s.NarrowAt j (s.conditionAt j) ∨ s.NarrowAt j (s.conditionAt j - 1)) ∧
    (∀ out, s.overlayMatchers? slice = some out → s.Overlaid slice out) ∧
    ∀ g : Geometry, s.Fits g →
      (s.overlayMatchers? slice).isSome ∧ s.matcherCount = g.wordsPerStep := by
  refine ⟨overlayMatchers?_eq_none_iff, fun out laid => overlaid laid, fun g fits => ?_⟩
  obtain ⟨words, made⟩ := Option.isSome_iff_exists.1 (isSome_matcherWords? fits slice.length)
  refine ⟨?_, matcherCount_eq fits⟩
  rw [overlayMatchers?, made]
  rfl

/-- A step whose second pattern has one channel less than the others. -/
def unevenStep : Step where
  conditions := [⟨⟨[.high, .low]⟩, .normal⟩, ⟨⟨[.any]⟩, .normal⟩,
    ⟨⟨[.rising, .falling]⟩, .normal⟩, ⟨⟨[.low, .change]⟩, .normal⟩]

/-- With room for one word only its second pattern is not looked at. A neutral step leaves
the room that it does not need. -/
theorem overlayMatchers?_exact_uneven :
    let small : Geometry := ⟨⟨2, 1, 2, 16⟩, by decide⟩
    unevenStep.overlayMatchers? [7] = some [0x06060040] ∧
      unevenStep.Overlaid [7] [0x06060040] ∧
      unevenStep.overlayMatchers? [7, 8] = none ∧
      (neutral small).Fits small ∧
      (neutral small).overlayMatchers? [7, 8] = some [0xFFFFFFFF, 8] ∧
      (neutral small).Overlaid [7, 8] [0xFFFFFFFF, 8] ∧
      (neutral small).matcherCount = small.wordsPerStep := by
  intro small
  have one : unevenStep.overlayMatchers? [7] = some [0x06060040] := by decide +kernel
  have narrow : unevenStep.NarrowAt 1 (unevenStep.conditionAt 1) :=
    ⟨⟨⟨[.any]⟩, .normal⟩, by decide, by decide⟩
  have both : (neutral small).overlayMatchers? [7, 8] = some [0xFFFFFFFF, 8] := by decide +kernel
  have fits : (neutral small).Fits small := neutral_fits small
  obtain ⟨-, laid, -⟩ := overlayMatchers?_exact unevenStep [7]
  obtain ⟨missing, -, -⟩ := overlayMatchers?_exact unevenStep [7, 8]
  obtain ⟨-, laid', held⟩ := overlayMatchers?_exact (neutral small) [7, 8]
  exact ⟨one, laid _ one, missing.2 ⟨1, by decide, .inl narrow⟩, fits, both, laid' _ both,
    (held small fits).2⟩

end Step

end LogicCapture
