import LogicCapture.Wire.Frame

/-!
# Samples on the wire

A sample is two bytes, low byte first. Reading samples distributes over the
replies that bring them, as long as no reply ends in the middle of a sample.
-/

namespace LogicCapture.Wire

theorem toNat_sampleOfBytes (low high : UInt8) :
    (sampleOfBytes low high).toNat = low.toNat + 256 * high.toNat := by
  have low_lt : low.toNat < 2 ^ 8 := low.toNat_lt
  have high_lt := high.toNat_lt
  have shifted : high.toNat <<< 8 % 65536 = 256 * high.toNat := by
    rw [Nat.shiftLeft_eq, Nat.mod_eq_of_lt (by omega), Nat.mul_comm]
  rw [sampleOfBytes, UInt16.toNat_or, UInt16.toNat_shiftLeft, UInt8.toNat_toUInt16,
    UInt8.toNat_toUInt16]
  change low.toNat ||| high.toNat <<< 8 % 65536 = _
  rw [shifted, Nat.or_comm, ← Nat.two_pow_add_eq_or_of_lt low_lt, Nat.add_comm]

/-- What was read before comes first. -/
theorem samplesOnto_eq (read : List UInt16) (bytes : List UInt8) :
    samplesOnto read bytes = read.reverse ++ samples bytes := by
  have onto : ∀ read before : List UInt16,
      samplesOnto (read ++ before) bytes = before.reverse ++ samplesOnto read bytes := by
    intro read before
    fun_induction samplesOnto read bytes with
    | case1 read low high rest ih => exact ih
    | case2 read bytes short =>
      rw [samplesOnto, List.reverse_append]
      exact short
  exact onto [] read

theorem samples_pair (low high : UInt8) (rest : List UInt8) :
    samples (low :: high :: rest) = sampleOfBytes low high :: samples rest :=
  samplesOnto_eq [sampleOfBytes low high] rest

theorem exists_pair {bytes : List UInt8} {count : Nat} (length : bytes.length = 2 * (count + 1)) :
    ∃ low high rest, bytes = low :: high :: rest ∧ rest.length = 2 * count := by
  rcases bytes with _ | ⟨low, _ | ⟨high, rest⟩⟩
  · rw [List.length_nil] at length
    omega
  · rw [List.length_singleton] at length
    omega
  · rw [List.length_cons, List.length_cons] at length
    exact ⟨low, high, rest, rfl, by omega⟩

/-- Whole samples are read before what follows them. -/
theorem samples_append {bytes : List UInt8} (whole : 2 ∣ bytes.length) (more : List UInt8) :
    samples (bytes ++ more) = samples bytes ++ samples more := by
  obtain ⟨count, length⟩ := whole
  induction count generalizing bytes with
  | zero =>
    rw [List.eq_nil_of_length_eq_zero length]
    rfl
  | succ count ih =>
    obtain ⟨low, high, rest, rfl, shorter⟩ := exists_pair length
    rw [List.cons_append, List.cons_append, samples_pair, samples_pair, ih shorter,
      List.cons_append]

/-- Sample number `i` is made of the bytes `2 * i` and `2 * i + 1`. -/
theorem map_toNat_samples {bytes : List UInt8} {count : Nat} (length : bytes.length = 2 * count) :
    (samples bytes).map UInt16.toNat = (List.range count).map fun i =>
      (bytes.getD (2 * i) 0).toNat + 256 * (bytes.getD (2 * i + 1) 0).toNat := by
  induction count generalizing bytes with
  | zero =>
    rw [List.eq_nil_of_length_eq_zero length]
    rfl
  | succ count ih =>
    obtain ⟨low, high, rest, rfl, shorter⟩ := exists_pair length
    rw [samples_pair, List.map_cons, toNat_sampleOfBytes, ih shorter, List.range_succ_eq_map,
      List.map_cons, List.map_map]
    rfl

theorem length_samples {bytes : List UInt8} {count : Nat} (length : bytes.length = 2 * count) :
    (samples bytes).length = count := by
  have values := congrArg List.length (map_toNat_samples length)
  rwa [List.length_map, List.length_map, List.length_range] at values

end LogicCapture.Wire
