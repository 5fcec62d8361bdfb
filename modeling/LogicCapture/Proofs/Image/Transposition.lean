import LogicCapture.Image.Planes
import LogicCapture.Proofs.Image.Layout
import LogicCapture.Proofs.Image.WordBits
import LogicCapture.Proofs.MatchCounter.Orbit

/-!
# Bit planes are a transposition

The count words and the flag words hold one bit of every step. Read the other
way they give each step its bits back: `testBit_countWords` for the counter
states, `testBit_plane` for any plane. So steps with the same planes have the
same bits (`Planes.countWords?_inj`, `Planes.flagWords?_inj`).
-/

namespace LogicCapture.Planes

variable {α : Type} {set? : α → Option Bool}

/-! ## One plane -/

theorem testBit_oneHot {place : Nat} {word : UInt32} (made : oneHot? place = some word) (i : Nat) :
    word.toNat.testBit i = decide (place = i) := by
  rw [oneHot?] at made
  split at made
  · next lt =>
    have value : (UInt32.ofNat place).toNat = place :=
      UInt32.toNat_ofNat_of_lt' (Nat.lt_trans lt (by decide))
    have one : (1 : UInt32).toNat = 1 := rfl
    have power : 2 ^ place < 2 ^ 32 := Nat.pow_lt_pow_right (by decide) lt
    rw [← Option.some.inj made, UInt32.toNat_shiftLeft, value, Nat.mod_eq_of_lt lt, one,
      Nat.shiftLeft_eq, Nat.one_mul, Nat.mod_eq_of_lt power, Nat.testBit_two_pow]
  · cases made

/-- A plane keeps the bits of the word that it starts from and adds the bits of
the steps at their places. -/
theorem testBit_foldlM_plane {steps : List α} {index : Nat} {start word : UInt32}
    (made : (steps.zipIdx index).foldlM (fun word (step, place) => do
      if ← set? step then
        return word ||| (← oneHot? place)
      return word) start = some word) (i : Nat) :
    word.toNat.testBit i =
      (start.toNat.testBit i ||
        (decide (index ≤ i) && steps[i - index]?.bind set? == some true)) := by
  induction steps generalizing index start with
  | nil =>
    cases made
    simp
  | cons step rest ih =>
    rw [List.zipIdx_cons, List.foldlM_cons] at made
    obtain ⟨next, first, others⟩ := Option.bind_eq_some_iff.1 made
    obtain ⟨bit, known, first⟩ := Option.bind_eq_some_iff.1 first
    rw [ih others]
    -- what the first step contributes at its own place
    have own : next.toNat.testBit i =
        (start.toNat.testBit i || (bit && decide (index = i))) := by
      cases bit with
      | true =>
        obtain ⟨hot, hotAt, first⟩ := Option.bind_eq_some_iff.1 first
        rw [← Option.some.inj first, UInt32.toNat_or, Nat.testBit_or, testBit_oneHot hotAt,
          Bool.true_and]
      | false =>
        rw [← Option.some.inj first, Bool.false_and, Bool.or_false]
    rw [own, Bool.or_assoc]
    congr 1
    rcases Nat.lt_trichotomy i index with before | here | behind
    · have ne : index ≠ i := by omega
      have notLe : ¬ index + 1 ≤ i := by omega
      have notLe' : ¬ index ≤ i := by omega
      simp [ne, notLe, notLe']
    · subst here
      simp [known]
    · have ne : index ≠ i := by omega
      have le : index + 1 ≤ i := by omega
      have le' : index ≤ i := by omega
      have place : i - index = i - (index + 1) + 1 := by omega
      rw [place, List.getElem?_cons_succ]
      simp [ne, le, le']

/-- Bit `i` of a plane is set exactly when it is set for step `i`. -/
theorem testBit_plane {steps : List α} {word : UInt32} (made : plane? set? 0 steps = some word)
    (i : Nat) : word.toNat.testBit i = (steps[i]?.bind set? == some true) := by
  rw [testBit_foldlM_plane made]
  simp

/-! ## All planes of the counter states -/

/-- Bit `i` of the word for counter bit `bit`, the most significant one first,
is that bit of the state of step `i`. -/
theorem testBit_countWords {bits : Nat} {targets : List UInt16} {words : List UInt32}
    (made : countWords? bits targets = some words) {bit : Nat} (lt : bit < bits)
    (narrow : bits ≤ 16) :
    ∃ word, words[bits - 1 - bit]? = some word ∧
      ∀ i, word.toNat.testBit i = targets[i]?.any (·.toNat.testBit bit) := by
  have wordAt := getElem?_of_mapM made (bits - 1 - bit)
  have bitAt : (List.range bits).reverse[bits - 1 - bit]? = some bit := by
    rw [List.getElem?_reverse (by rw [List.length_range]; omega), List.length_range,
      List.getElem?_range (by omega)]
    congr 1
    omega
  rw [bitAt, Option.bind_some] at wordAt
  have collected : words[bits - 1 - bit]? ≠ none := by
    rw [Ne, List.getElem?_eq_none_iff, length_of_mapM made, List.length_reverse, List.length_range]
    omega
  obtain ⟨word, found⟩ := Option.ne_none_iff_exists'.1 collected
  refine ⟨word, found, fun i => ?_⟩
  rw [found] at wordAt
  rw [testBit_plane wordAt.symm]
  cases targets[i]? with
  | none => rfl
  | some target =>
    have inside : bit < 16 := by omega
    simp [counterBit?, inside]

/-- Equally many states with the same planes are the same. -/
theorem countWords?_inj {targets others : List UInt16} (length : targets.length = others.length)
    (few : targets.length ≤ 32) :
    countWords? 16 targets = countWords? 16 others ↔ targets = others := by
  refine ⟨fun same => ?_, fun same => by rw [same]⟩
  obtain ⟨words, made⟩ := Option.isSome_iff_exists.1
    (isSome_countWords? (Nat.le_refl 16) few)
  have made' : countWords? 16 others = some words := by rw [← same, made]
  apply List.ext_getElem length
  intro i iLt jLt
  apply MatchCounter.state_ext
  intro bit lt
  obtain ⟨word, wordAt, bits⟩ := testBit_countWords made lt (Nat.le_refl 16)
  obtain ⟨word', wordAt', bits'⟩ := testBit_countWords made' lt (Nat.le_refl 16)
  rw [wordAt] at wordAt'
  cases wordAt'
  have eq := (bits i).symm.trans (bits' i)
  rw [List.getElem?_eq_getElem iLt, List.getElem?_eq_getElem jLt] at eq
  exact eq

/-! ## Flags -/

/-- The flag words: the last step alone, and the contiguous steps. -/
theorem flagWords_bits {contiguous : List Bool} {words : List UInt32}
    (made : flagWords? contiguous = some words) :
    ∃ last mask, words = [last, mask] ∧
      (∀ i, last.toNat.testBit i = decide (contiguous.length - 1 = i)) ∧
      ∀ i, mask.toNat.testBit i = (contiguous[i]? == some true) := by
  rw [flagWords?] at made
  obtain ⟨last, lastAt, made⟩ := Option.bind_eq_some_iff.1 made
  obtain ⟨mask, maskAt, made⟩ := Option.bind_eq_some_iff.1 made
  refine ⟨last, mask, (Option.some.inj made).symm, testBit_oneHot lastAt, fun i => ?_⟩
  rw [testBit_plane maskAt]
  cases contiguous[i]? <;> rfl

/-- The flag words tell which steps there are and which of them are
contiguous. -/
theorem flagWords?_inj {contiguous others : List Bool} (some_step : 0 < contiguous.length)
    (some_other : 0 < others.length) (few : contiguous.length ≤ 32) :
    flagWords? contiguous = flagWords? others ↔ contiguous = others := by
  refine ⟨fun same => ?_, fun same => by rw [same]⟩
  obtain ⟨words, made⟩ := Option.isSome_iff_exists.1 (isSome_flagWords? few)
  have made' : flagWords? others = some words := by rw [← same, made]
  obtain ⟨last, mask, rfl, lastBits, maskBits⟩ := flagWords_bits made
  obtain ⟨last', mask', eq, lastBits', maskBits'⟩ := flagWords_bits made'
  cases eq
  have length : contiguous.length = others.length := by
    have bit := lastBits' (contiguous.length - 1)
    rw [lastBits, decide_eq_true rfl] at bit
    have eq := of_decide_eq_true bit.symm
    omega
  apply List.ext_getElem length
  intro i iLt jLt
  have bit := (maskBits i).symm.trans (maskBits' i)
  rw [List.getElem?_eq_getElem iLt, List.getElem?_eq_getElem jLt] at bit
  revert bit
  cases contiguous[i] <;> cases others[i] <;> decide

end LogicCapture.Planes
