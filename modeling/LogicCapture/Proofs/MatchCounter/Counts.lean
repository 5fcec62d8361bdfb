import LogicCapture.Proofs.Image.CountPlanes
import LogicCapture.Proofs.MatchCounter.Orbit
import Mathlib.Data.Finset.Card
import Mathlib.Data.Finset.Image
import Mathlib.Data.Nat.ModEq
import Mathlib.Data.Set.Function
import Mathlib.Order.Interval.Finset.Nat

/-!
# Match counts and their states

The orbit of the seed has as many states as there are states but 0, so every one of
these is met (`exists_state_eq`), and each stands for one match count. `counter_maximal` puts
together what the trigger engine needs of its counter: the states that it goes through
repeat after 65535 matches and not before, each count but 0 has a state of its own, and
the engine finds the state of a step's count at that match and at no earlier one.
-/

namespace LogicCapture.MatchCounter

open Function

/-! ## The states that are met -/

/-- The states that the counter gives one by one. -/
theorem run_seed_eq (n : Nat) : run n seed = (List.range n).map state := by
  apply List.ext_getElem?
  intro i
  rw [getElem?_run, List.getElem?_map]
  rcases Nat.lt_or_ge i n with lt | le
  · rw [if_pos lt, List.getElem?_range lt, Option.map_some, state]
  · rw [if_neg (Nat.not_lt_of_le le), List.getElem?_eq_none (by rwa [List.length_range]),
      Option.map_none]

theorem state_ne_zero (i : Nat) : state i ≠ 0 := by
  induction i with
  | zero => decide
  | succ i ih =>
    intro zero
    rw [state_succ, ← next_zero] at zero
    exact ih (next_bijective.injective zero)

/-- Every state but 0 is met before the counter is back at its seed: these are as many
states as it goes through. -/
theorem exists_state_eq {s : UInt16} (ne : s ≠ 0) : ∃ i < 65535, state i = s := by
  let met := (Finset.range 65535).image fun i => (state i).toNat
  have distinct : Set.InjOn (fun i => (state i).toNat) (Finset.range 65535) := by
    intro i iMem j jMem same
    have remainders := (state_eq_state_iff i j).1 (UInt16.toNat_inj.1 same)
    rwa [Nat.mod_eq_of_lt (Finset.mem_range.1 iMem),
      Nat.mod_eq_of_lt (Finset.mem_range.1 jMem)] at remainders
  have inside : met ⊆ Finset.Icc 1 65535 := by
    intro value mem
    obtain ⟨i, -, rfl⟩ := Finset.mem_image.1 mem
    have positive : (state i).toNat ≠ 0 := fun zero =>
      state_ne_zero i (UInt16.toNat_inj.1 zero)
    have bound : (state i).toNat < 65536 := (state i).toNat_lt_size
    exact Finset.mem_Icc.2 ⟨by omega, by omega⟩
  have all : met = Finset.Icc 1 65535 := by
    apply Finset.eq_of_subset_of_card_le inside
    rw [Finset.card_image_of_injOn distinct, Finset.card_range, Nat.card_Icc]
  have positive : s.toNat ≠ 0 := fun zero => ne (UInt16.toNat_inj.1 zero)
  have bound : s.toNat < 65536 := s.toNat_lt_size
  have member : s.toNat ∈ met := by
    rw [all]
    exact Finset.mem_Icc.2 ⟨by omega, by omega⟩
  obtain ⟨i, below, eq⟩ := Finset.mem_image.1 member
  exact ⟨i, Finset.mem_range.1 below, UInt16.toNat_inj.1 eq⟩

/-- The state 0 alone stays where it is: all others are met, and the next one to be met
is another one. -/
theorem next_eq_self_iff (s : UInt16) : next s = s ↔ s = 0 := by
  constructor
  · intro fixed
    by_contra ne
    obtain ⟨i, -, rfl⟩ := exists_state_eq ne
    rw [← state_succ, state_eq_state_iff] at fixed
    omega
  · rintro rfl
    exact next_zero

/-! ## The states of counts -/

theorem encode_of_pos {count : UInt16} (pos : 1 ≤ count.toNat) :
    encode count = state (count.toNat - 1) := by
  rw [encode, Nat.max_eq_left pos]

/-- Within one turn of the counter the state of a count is met at that match alone. -/
theorem state_eq_encode_iff (count : UInt16) {i : Nat} (lt : i < 65535) :
    state i = encode count ↔ i + 1 = max count.toNat 1 := by
  have bound : count.toNat < 65536 := count.toNat_lt_size
  rw [encode, state_eq_state_iff, Nat.mod_eq_of_lt lt, Nat.mod_eq_of_lt (by omega)]
  omega

/-- One match more has the next state. -/
theorem next_encode {count : UInt16} (pos : 1 ≤ count.toNat) (lt : count.toNat < 65535) :
    next (encode count) = encode (count + 1) := by
  have more : (count + 1).toNat = count.toNat + 1 := by
    have one : (1 : UInt16).toNat = 1 := rfl
    rw [UInt16.toNat_add, one, Nat.mod_eq_of_lt (by omega)]
  have next_pos : 1 ≤ (count + 1).toNat := by omega
  rw [encode_of_pos pos, encode_of_pos next_pos, ← state_succ, more]
  congr 1
  omega

/-- The counts but 0 stand for the states but 0, one for one. -/
theorem encode_bijOn : Set.BijOn encode {count | 1 ≤ count} {s | s ≠ 0} := by
  have pos {count : UInt16} (mem : count ∈ {count : UInt16 | 1 ≤ count}) : 1 ≤ count.toNat := mem
  refine ⟨fun count _ => state_ne_zero _, fun a aMem b bMem same => ?_, fun s ne => ?_⟩
  · have counts := (encode_eq_encode_iff a b).1 same
    rw [Nat.max_eq_left (pos aMem), Nat.max_eq_left (pos bMem)] at counts
    exact UInt16.toNat_inj.1 counts
  · obtain ⟨i, lt, rfl⟩ := exists_state_eq ne
    have number : (UInt16.ofNat (i + 1)).toNat = i + 1 := by
      rw [UInt16.toNat_ofNat', Nat.mod_eq_of_lt (by omega)]
    refine ⟨UInt16.ofNat (i + 1), ?_, ?_⟩
    · change 1 ≤ (UInt16.ofNat (i + 1)).toNat
      omega
    · rw [encode_of_pos (by omega), number, Nat.add_sub_cancel]

/-- The engine holds the same counter state for two active steps of a program exactly
when they wait for equally many matches. -/
theorem counterState_eq_iff (p : Program) {s t : Nat} {step other : Step}
    (stepAt : p.active[s]? = some step) (otherAt : p.active[t]? = some other) :
    p.engine.counterState s = p.engine.counterState t ↔
      max step.count.toNat 1 = max other.count.toNat 1 := by
  rw [p.counterState_eq, p.counterState_eq, stepAt, otherAt]
  change (encode step.count).toNat = (encode other.count).toNat ↔ _
  rw [UInt16.toNat_inj, encode_eq_encode_iff]

/-- The counter is as long as a counter of 16 bits can be. Counting on is a bijection of
the states, and of these 0 alone stays where it is. The states that the counter gives
are never 0, and two of them are the same exactly when their numbers leave one remainder
by 65535. The counts from 1 on stand for all states but 0, one for one, a count of 0
for the same state as 1, and one match more for the next state. So within one turn the
state of a count is met at that match alone, and the engine tells the counts of any two
active steps of a program apart. -/
theorem counter_maximal :
    (Bijective next ∧ ∀ s, next s = s ↔ s = 0) ∧
    ((∀ n, run n seed = (List.range n).map state) ∧ (∀ i, state i ≠ 0) ∧
      ∀ i j, state i = state j ↔ i ≡ j [MOD 65535]) ∧
    (Set.BijOn encode {count | 1 ≤ count} {s | s ≠ 0} ∧ encode 0 = 1 ∧ encode 1 = 1 ∧
      ∀ count, 1 ≤ count → count < 65535 → next (encode count) = encode (count + 1)) ∧
    (∀ count, ∀ i < 65535, state i = encode count ↔ i + 1 = max count.toNat 1) ∧
    ∀ (p : Program) (s t : Nat) (step other : Step), p.active[s]? = some step →
      p.active[t]? = some other → 1 ≤ step.count → 1 ≤ other.count →
      (p.engine.counterState s = p.engine.counterState t ↔ step.count = other.count) := by
  refine ⟨⟨next_bijective, next_eq_self_iff⟩, ⟨run_seed_eq, state_ne_zero, state_eq_state_iff⟩,
    ⟨encode_bijOn, by decide, by decide, fun count pos lt => next_encode pos lt⟩,
    fun count i lt => state_eq_encode_iff count lt, ?_⟩
  intro p s t step other stepAt otherAt pos otherPos
  have pos' : 1 ≤ step.count.toNat := pos
  have otherPos' : 1 ≤ other.count.toNat := otherPos
  rw [counterState_eq_iff p stepAt otherAt, Nat.max_eq_left pos', Nat.max_eq_left otherPos',
    UInt16.toNat_inj]

end LogicCapture.MatchCounter
