import LogicCapture.MatchCounter
import Mathlib.Dynamics.PeriodicPts.Defs
import Mathlib.Data.Nat.Prime.Basic
import Mathlib.Tactic.IntervalCases
import Mathlib.Tactic.NormNum.Prime

/-!
# The orbit of the match counter

The counter is linear in its bits, and its step has an inverse (`back`). So a
state is turned by the bits of another one into the state that lies as far
behind both as they lie behind the seed (`times_state`), and a state with a
large number is computed by doubling. Five states computed so leave one length
for the orbit of the seed: `minimalPeriod_seed` says that it is 65535, which is
every state but 0. `encode_eq_encode_iff` is what match counts need of it.
-/

namespace LogicCapture.MatchCounter

open Function

/-! ## States bit by bit -/

theorem testBit_beyond (s : UInt16) {i : Nat} (le : 16 ≤ i) : s.toNat.testBit i = false := by
  have power : 2 ^ 16 ≤ 2 ^ i := Nat.pow_le_pow_right (by decide) le
  exact Nat.testBit_lt_two_pow (Nat.lt_of_lt_of_le s.toNat_lt_size power)

/-- States with the same bits are the same. -/
theorem state_ext {a b : UInt16} (same : ∀ i < 16, a.toNat.testBit i = b.toNat.testBit i) :
    a = b := by
  apply UInt16.toNat_inj.1
  apply Nat.eq_of_testBit_eq
  intro i
  rcases Nat.lt_or_ge i 16 with lt | le
  · exact same i lt
  · rw [testBit_beyond a le, testBit_beyond b le]

theorem low_bit_iff (s : UInt16) : s &&& 1 = 1 ↔ s.toNat.testBit 0 = true := by
  have one : (1 : UInt16).toNat = 1 := rfl
  rw [← UInt16.toNat_inj, UInt16.toNat_and, one, Nat.and_one_is_mod, Nat.testBit_zero,
    decide_eq_true_iff]

theorem testBit_shiftRight_one (s : UInt16) (i : Nat) :
    (s >>> 1).toNat.testBit i = s.toNat.testBit (i + 1) := by
  have one : (1 : UInt16).toNat % 16 = 1 := rfl
  rw [UInt16.toNat_shiftRight, one, Nat.testBit_shiftRight, Nat.add_comm]

theorem testBit_shiftLeft_one (s : UInt16) {i : Nat} (lt : i < 16) :
    (s <<< 1).toNat.testBit i = (decide (1 ≤ i) && s.toNat.testBit (i - 1)) := by
  have one : (1 : UInt16).toNat % 16 = 1 := rfl
  rw [UInt16.toNat_shiftLeft, one, Nat.testBit_mod_two_pow, Nat.testBit_shiftLeft]
  simp [lt]

/-- Every bit moves down by one, and the bit shifted out toggles the feedback
bits. -/
theorem testBit_next (s : UInt16) (i : Nat) :
    (next s).toNat.testBit i =
      (s.toNat.testBit (i + 1) ^^ (s.toNat.testBit 0 && toggles.toNat.testBit i)) := by
  rw [next]
  split
  · next set =>
    rw [UInt16.toNat_xor, Nat.testBit_xor, testBit_shiftRight_one, (low_bit_iff s).1 set,
      Bool.true_and]
  · next clear =>
    have low : s.toNat.testBit 0 = false := by
      rw [← Bool.not_eq_true, ← low_bit_iff]
      exact clear
    rw [testBit_shiftRight_one, low, Bool.false_and, Bool.xor_false]

/-- The step is linear: it takes bitwise differences to bitwise differences. -/
theorem next_xor (a b : UInt16) : next (a ^^^ b) = next a ^^^ next b := by
  apply state_ext
  intro i _
  simp only [testBit_next, UInt16.toNat_xor, Nat.testBit_xor]
  cases a.toNat.testBit 0 <;> cases b.toNat.testBit 0 <;> cases toggles.toNat.testBit i <;> simp

/-! ## One step back -/

/-- The state before: every bit moves up by one, and the bit shifted out toggles
the bits above the feedback bits, and the lowest. -/
def back (s : UInt16) : UInt16 :=
  if s.toNat.testBit 15 then (s <<< 1) ^^^ 0x6801 else s <<< 1

/-- The bits toggled by a step back are the feedback bits, one place up. -/
theorem testBit_toggles {i : Nat} (lt : i < 15) :
    Nat.testBit 0x6801 (i + 1) = toggles.toNat.testBit i := by
  revert i
  decide

theorem testBit_back (s : UInt16) {i : Nat} (lt : i < 16) :
    (back s).toNat.testBit i =
      ((decide (1 ≤ i) && s.toNat.testBit (i - 1)) ^^
        (s.toNat.testBit 15 && Nat.testBit 0x6801 i)) := by
  rw [back]
  split
  · next set =>
    rw [UInt16.toNat_xor, Nat.testBit_xor, testBit_shiftLeft_one s lt, set, Bool.true_and]
    rfl
  · next clear =>
    rw [testBit_shiftLeft_one s lt, Bool.of_not_eq_true clear, Bool.false_and, Bool.xor_false]

theorem next_back (s : UInt16) : next (back s) = s := by
  apply state_ext
  intro i lt
  have positive : 0 < 16 := by omega
  rw [testBit_next, testBit_back s positive]
  rcases Nat.lt_or_ge (i + 1) 16 with inner | top
  · rw [testBit_back s inner, Nat.add_sub_cancel, testBit_toggles (Nat.lt_of_succ_lt_succ inner)]
    cases s.toNat.testBit 15 <;> cases toggles.toNat.testBit i <;> simp
  · obtain rfl : i = 15 := by omega
    rw [testBit_beyond _ (by decide)]
    simp [toggles, Nat.testBit]

theorem back_next (s : UInt16) : back (next s) = s := by
  apply state_ext
  intro i lt
  rw [testBit_back _ lt, testBit_next s 15, testBit_beyond s (by decide), Bool.false_xor]
  have high : toggles.toNat.testBit 15 = true := by decide
  rw [high, Bool.and_true]
  rcases Nat.eq_zero_or_pos i with rfl | pos
  · simp [Nat.testBit]
  · obtain ⟨j, rfl⟩ : ∃ j, i = j + 1 := ⟨i - 1, by omega⟩
    rw [Nat.add_sub_cancel, testBit_next s j, testBit_toggles (Nat.lt_of_succ_lt_succ lt)]
    cases s.toNat.testBit 0 <;> cases toggles.toNat.testBit j <;> simp

/-- Counting on is a bijection of all states. -/
theorem next_bijective : Bijective next :=
  bijective_iff_has_inverse.2 ⟨back, back_next, next_back⟩

/-! ## States as multipliers -/

/-- The bitwise difference of the states `factor i` for all set bits `i` of a
state, of the bits listed. -/
def select (b : UInt16) (factor : Nat → UInt16) (bits : List Nat) : UInt16 :=
  bits.foldr (fun i rest => (if b.toNat.testBit i then factor i else 0) ^^^ rest) 0

/-- Every set bit `i` of `b` stands for `a` moved back by `i` steps. -/
def times (a b : UInt16) : UInt16 := select b (fun i => back^[i] a) (List.range 16)

theorem next_zero : next 0 = 0 := by decide

theorem next_iterate_back (i : Nat) (a : UInt16) : next (back^[i] a) = back^[i] (next a) := by
  induction i with
  | zero => rfl
  | succ i ih =>
    rw [iterate_succ_apply', iterate_succ_apply', next_back, ← ih, back_next]

/-- Counting on commutes with selecting, as it is linear. -/
theorem next_select (b : UInt16) (factor : Nat → UInt16) (bits : List Nat) :
    next (select b factor bits) = select b (fun i => next (factor i)) bits := by
  induction bits with
  | nil => exact next_zero
  | cons i rest ih =>
    simp only [select, List.foldr_cons] at ih ⊢
    rw [next_xor, ih]
    split
    · rfl
    · rw [next_zero]

theorem next_times (a b : UInt16) : next (times a b) = times (next a) b := by
  rw [times, times, next_select]
  congr 1
  funext i
  exact next_iterate_back i a

/-- Selecting single bits gives the listed bits back. -/
theorem testBit_select_twoPow (b : UInt16) {factor : Nat → UInt16} {bits : List Nat}
    (single : ∀ i ∈ bits, ∀ j, (factor i).toNat.testBit j = decide (i = j)) (nodup : bits.Nodup)
    (j : Nat) : (select b factor bits).toNat.testBit j =
      (decide (j ∈ bits) && b.toNat.testBit j) := by
  induction bits with
  | nil => simp [select]
  | cons i rest ih =>
    have tail := ih (fun k mem => single k (List.mem_cons_of_mem _ mem)) nodup.of_cons
    have notMem : i ∉ rest := (List.nodup_cons.1 nodup).1
    simp only [select, List.foldr_cons] at tail ⊢
    rw [UInt16.toNat_xor, Nat.testBit_xor, tail]
    by_cases eq : i = j
    · subst eq
      split
      · next set => simp [single i (by simp), notMem, set]
      · next clear => simp [notMem, clear]
    · have other : (if b.toNat.testBit i then factor i else 0).toNat.testBit j = false := by
        split
        · rw [single i (by simp), decide_eq_false eq]
        · exact Nat.zero_testBit j
      rw [other, Bool.false_xor]
      simp [Ne.symm eq]

theorem times_seed (b : UInt16) : times seed b = b := by
  have single : ∀ i ∈ List.range 16, ∀ j, (back^[i] seed).toNat.testBit j = decide (i = j) := by
    intro i mem j
    have power : ∀ k < 16, (back^[k] seed).toNat = 2 ^ k := by decide
    rw [power i (List.mem_range.1 mem), Nat.testBit_two_pow]
  apply state_ext
  intro j lt
  rw [times, testBit_select_twoPow b single List.nodup_range, List.mem_range.2 lt |> decide_eq_true,
    Bool.true_and]

theorem state_succ (n : Nat) : state (n + 1) = next (state n) := advance_succ n seed

/-- Multiplying states adds their numbers. -/
theorem times_state (m n : Nat) : times (state m) (state n) = state (m + n) := by
  induction m with
  | zero =>
    rw [Nat.zero_add]
    exact times_seed (state n)
  | succ m ih => rw [state_succ, ← next_times, ih, Nat.succ_add, state_succ]

/-! ## States with large numbers -/

/-- The number with these bits, lowest first. -/
def number : List Bool → Nat
  | [] => 0
  | bit :: rest => 2 * number rest + bit.toNat

/-- The state with that number, by doubling. -/
def stateAt : List Bool → UInt16
  | [] => seed
  | bit :: rest =>
    let doubled := times (stateAt rest) (stateAt rest)
    if bit then next doubled else doubled

theorem stateAt_eq (bits : List Bool) : stateAt bits = state (number bits) := by
  induction bits with
  | nil => rfl
  | cons bit rest ih =>
    rw [stateAt, number, ih, times_state, ← Nat.two_mul]
    cases bit with
    | false => rfl
    | true => exact (state_succ _).symm

/-! ## The length of the orbit -/

theorem advance_eq_iterate (n : Nat) (s : UInt16) : advance n s = next^[n] s := by
  induction n generalizing s with
  | zero => rfl
  | succ n ih => exact ih (next s)

theorem prime_dvd_65535 {p : Nat} (prime : p.Prime) (dvd : p ∣ 65535) :
    p = 3 ∨ p = 5 ∨ p = 17 ∨ p = 257 := by
  have factors : (65535 : Nat) = 3 * (5 * (17 * 257)) := by norm_num
  rw [factors, prime.dvd_mul, prime.dvd_mul, prime.dvd_mul,
    Nat.prime_dvd_prime_iff_eq prime (by norm_num), Nat.prime_dvd_prime_iff_eq prime (by norm_num),
    Nat.prime_dvd_prime_iff_eq prime (by norm_num),
    Nat.prime_dvd_prime_iff_eq prime (by norm_num)] at dvd
  exact dvd

/-- The seed is met again after 65535 matches, and not after a third, a fifth, a
17th or a 257th of them. -/
theorem state_65535 : state 65535 = seed := by
  change state (number (List.replicate 16 true)) = seed
  rw [← stateAt_eq]
  decide +kernel

theorem state_ne_seed {p : Nat} (prime : p = 3 ∨ p = 5 ∨ p = 17 ∨ p = 257) :
    state (65535 / p) ≠ seed := by
  rcases prime with rfl | rfl | rfl | rfl
  · change state (number (List.replicate 8 [true, false]).flatten) ≠ seed
    rw [← stateAt_eq]
    decide +kernel
  · change state (number (List.replicate 4 [true, true, false, false]).flatten) ≠ seed
    rw [← stateAt_eq]
    decide +kernel
  · change state (number (List.replicate 4 true ++ List.replicate 4 false ++
      List.replicate 4 true)) ≠ seed
    rw [← stateAt_eq]
    decide +kernel
  · change state (number (List.replicate 8 true)) ≠ seed
    rw [← stateAt_eq]
    decide +kernel

theorem minimalPeriod_seed : minimalPeriod next seed = 65535 := by
  have full : IsPeriodicPt next 65535 seed := by
    rw [IsPeriodicPt, IsFixedPt, ← advance_eq_iterate]
    exact state_65535
  obtain ⟨rest, eq⟩ := full.minimalPeriod_dvd
  by_contra ne
  -- a shorter period divides one of the five numbers that were computed
  have restNe : rest ≠ 1 := fun one => ne (by rw [eq, one, Nat.mul_one])
  have dvd : rest.minFac ∣ 65535 := rest.minFac_dvd.trans ⟨_, by rw [eq, Nat.mul_comm]⟩
  have prime := prime_dvd_65535 (Nat.minFac_prime restNe) dvd
  have divides : minimalPeriod next seed ∣ 65535 / rest.minFac := by
    obtain ⟨quotient, restEq⟩ := rest.minFac_dvd
    refine ⟨quotient, Nat.div_eq_of_eq_mul_left (Nat.minFac_pos rest) ?_⟩
    calc 65535 = minimalPeriod next seed * rest := eq
      _ = minimalPeriod next seed * (rest.minFac * quotient) := by rw [← restEq]
      _ = minimalPeriod next seed * quotient * rest.minFac := by
        rw [Nat.mul_assoc, Nat.mul_comm quotient]
  have again := (isPeriodicPt_iff_minimalPeriod_dvd.2 divides).eq
  rw [← advance_eq_iterate] at again
  exact state_ne_seed prime again

/-- Two numbers give one state exactly when they leave one remainder. -/
theorem state_eq_state_iff (i j : Nat) : state i = state j ↔ i % 65535 = j % 65535 := by
  have reduced : ∀ n, state n = next^[n % 65535] seed := by
    intro n
    have turn := iterate_mod_minimalPeriod_eq (f := next) (x := seed) (n := n)
    rw [minimalPeriod_seed] at turn
    rw [turn]
    exact advance_eq_iterate n seed
  rw [reduced i, reduced j]
  apply iterate_eq_iterate_iff_of_lt_minimalPeriod
  · rw [minimalPeriod_seed]
    exact Nat.mod_lt i (by decide)
  · rw [minimalPeriod_seed]
    exact Nat.mod_lt j (by decide)

/-- Counts are told apart by their states, except that no match at all counts as
one. -/
theorem encode_eq_encode_iff (a b : UInt16) :
    encode a = encode b ↔ max a.toNat 1 = max b.toNat 1 := by
  have aLt : a.toNat < 65536 := a.toNat_lt_size
  have bLt : b.toNat < 65536 := b.toNat_lt_size
  rw [encode, encode, state_eq_state_iff, Nat.mod_eq_of_lt (by omega), Nat.mod_eq_of_lt (by omega)]
  omega

end LogicCapture.MatchCounter
