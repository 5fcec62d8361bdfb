import LogicCapture.Image.Bits
import LogicCapture.Trigger.Step

/-!
Pattern matchers. One table word decides two neighbouring channels of two
neighbouring patterns: the half of a pattern is a truth table over the previous
and current levels of both channels. The words of a step run from the top
channels down, and within a pair of channels from the last patterns down; in a
word the odd pattern takes the upper half.
-/

namespace LogicCapture

/-! ## Truth tables of two channels -/

/-- Truth tables of two neighbouring channels of one pattern, for every symbol of the
upper channel six, one for every symbol of the lower channel. Bit `i` of a table
answers for the levels that `i` spells as previous and current upper, previous and
current lower, most significant first. -/
def pairTables : List UInt16 := [
  -- below X: X, H, L, R, F, C
  0b1111_1111_1111_1111, 0b1010_1010_1010_1010, 0b0101_0101_0101_0101,
  0b0010_0010_0010_0010, 0b0100_0100_0100_0100, 0b0110_0110_0110_0110,
  -- below H: X, H, L, R, F, C
  0b1111_0000_1111_0000, 0b1010_0000_1010_0000, 0b0101_0000_0101_0000,
  0b0010_0000_0010_0000, 0b0100_0000_0100_0000, 0b0110_0000_0110_0000,
  -- below L: X, H, L, R, F, C
  0b0000_1111_0000_1111, 0b0000_1010_0000_1010, 0b0000_0101_0000_0101,
  0b0000_0010_0000_0010, 0b0000_0100_0000_0100, 0b0000_0110_0000_0110,
  -- below R: X, H, L, R, F, C
  0b0000_0000_1111_0000, 0b0000_0000_1010_0000, 0b0000_0000_0101_0000,
  0b0000_0000_0010_0000, 0b0000_0000_0100_0000, 0b0000_0000_0110_0000,
  -- below F: X, H, L, R, F, C
  0b0000_1111_0000_0000, 0b0000_1010_0000_0000, 0b0000_0101_0000_0000,
  0b0000_0010_0000_0000, 0b0000_0100_0000_0000, 0b0000_0110_0000_0000,
  -- below C: X, H, L, R, F, C
  0b0000_1111_1111_0000, 0b0000_1010_1010_0000, 0b0000_0101_0101_0000,
  0b0000_0010_0010_0000, 0b0000_0100_0100_0000, 0b0000_0110_0110_0000]

theorem pairTables_bound (upper lower : Symbol) :
    6 * upper.index + lower.index < pairTables.length := by
  have upper_lt := upper.index_lt
  have lower_lt := lower.index_lt
  change _ < 36
  omega

/-- The truth table for the symbols of two neighbouring channels. -/
def pairTable (upper lower : Symbol) : UInt16 :=
  pairTables.get ⟨6 * upper.index + lower.index, pairTables_bound upper lower⟩

/-- Two tables in one word. -/
def joinTables (high low : UInt16) : UInt32 :=
  high.toUInt32 <<< 16 ||| low.toUInt32

namespace Step

/-! ## Matcher words of a step -/

/-- Width of the first pattern, which stands for all. -/
def leadWidth (s : Step) : Nat :=
  match s.conditions with
  | [] => 0
  | c :: _ => c.pattern.width

/-- Every second element, from the first one on. -/
def everySecond {α : Type} : List α → List α
  | [] => []
  | [a] => [a]
  | a :: _ :: rest => a :: everySecond rest

/-- The upper one of every two below `n`, from the top. -/
def uppers (n : Nat) : List Nat := everySecond (List.range' 1 (n - 1)).reverse

/-- Upper channel and upper condition of every matcher word, in order. -/
def matcherPlaces (s : Step) : List (Nat × Nat) :=
  (uppers s.leadWidth).flatMap fun channel =>
    (uppers s.conditions.length).map fun condition => (channel, condition)

/-- Table of condition number `condition` for `channel` and the one below. -/
def halfWord? (s : Step) (channel condition : Nat) : Option UInt16 := do
  let c ← s.conditions[condition]?
  let upper ← c.pattern.channel? channel
  let lower ← c.pattern.channel? (channel - 1)
  return pairTable upper lower

/-- Matcher word of two channels and two conditions, given by their upper ones;
none if a pattern is too narrow for the channels. -/
def matcherWord? (s : Step) (place : Nat × Nat) : Option UInt32 := do
  let high ← s.halfWord? place.1 place.2
  let low ← s.halfWord? place.1 (place.2 - 1)
  return joinTables high low

/-- The first `room` matcher words. Only these are looked at, so a pattern that
is too narrow for a later one does no harm. -/
def matcherWords? (s : Step) (room : Nat) : Option (List UInt32) :=
  (s.matcherPlaces.take room).mapM s.matcherWord?

/-- Matcher words at the front of a slice, as many as there are and there is room
for. Behind them the slice keeps its content. -/
def overlayMatchers? (s : Step) (slice : List UInt32) : Option (List UInt32) := do
  let words ← s.matcherWords? slice.length
  return overlay words slice

/-! ## Steps that fit have all their words -/

theorem mem_of_mem_everySecond {α : Type} {a : α} {l : List α} (mem : a ∈ everySecond l) :
    a ∈ l := by
  fun_induction everySecond l with
  | case1 => exact mem
  | case2 => exact mem
  | case3 first second rest ih =>
    rcases List.mem_cons.1 mem with rfl | later
    · exact List.mem_cons_self
    · exact List.mem_cons_of_mem _ (List.mem_cons_of_mem _ (ih later))

theorem mem_uppers {n i : Nat} (mem : i ∈ uppers n) : 1 ≤ i ∧ i < n := by
  have listed := List.mem_reverse.1 (mem_of_mem_everySecond mem)
  rw [List.mem_range'_1] at listed
  omega

theorem isSome_halfWord? {s : Step} {g : Geometry} (fits : s.Fits g) {channel condition : Nat}
    (channelLt : channel < g.channels) (conditionLt : condition < s.conditions.length) :
    (s.halfWord? channel condition).isSome := by
  have width := fits.2 _ (List.getElem_mem conditionLt)
  obtain ⟨upper, hu⟩ := Option.isSome_iff_exists.1
    (Pattern.isSome_channel? (p := s.conditions[condition].pattern).2 (width ▸ channelLt))
  obtain ⟨lower, hl⟩ := Option.isSome_iff_exists.1
    (Pattern.isSome_channel? (p := s.conditions[condition].pattern).2
      (show channel - 1 < _ by omega))
  simp [halfWord?, List.getElem?_eq_getElem conditionLt, hu, hl]

theorem leadWidth_le {s : Step} {g : Geometry} (fits : s.Fits g) : s.leadWidth ≤ g.channels := by
  unfold leadWidth
  split
  · exact Nat.zero_le _
  · next c rest eq => exact Nat.le_of_eq (fits.2 c (by simp [eq]))

theorem isSome_matcherWords? {s : Step} {g : Geometry} (fits : s.Fits g) (room : Nat) :
    (s.matcherWords? room).isSome := by
  apply isSome_mapM
  intro place mem
  have mem := List.mem_of_mem_take mem
  simp only [matcherPlaces, List.mem_flatMap, List.mem_map] at mem
  obtain ⟨channel, channelMem, condition, conditionMem, rfl⟩ := mem
  have channelLt := (mem_uppers channelMem).2
  have conditionLt := (mem_uppers conditionMem).2
  have width := leadWidth_le fits
  obtain ⟨high, hh⟩ := Option.isSome_iff_exists.1
    (isSome_halfWord? fits (show channel < g.channels by omega) conditionLt)
  obtain ⟨low, hl⟩ := Option.isSome_iff_exists.1
    (isSome_halfWord? fits (show channel < g.channels by omega)
      (show condition - 1 < s.conditions.length by omega))
  simp [matcherWord?, hh, hl]

end Step

end LogicCapture
