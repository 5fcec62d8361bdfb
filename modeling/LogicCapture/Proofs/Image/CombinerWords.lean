import LogicCapture.Proofs.Engine.Lookup
import LogicCapture.Proofs.Trigger.TruthTable

/-!
# Combiner words of any step

A step on its own may have more patterns than a combiner word can number. The choices of
matches are then gone through until an accepted one has no bit.
`Step.combinerWord?_exact` says when a step has a combiner word and what each bit of it
is, that disabled patterns do not matter, and what becomes of the accepted choices when
a step is turned into its dual.
-/

namespace LogicCapture

/-! ## Duals -/

namespace Operation

/-- The other operation. -/
def dual : Operation → Operation
  | conj => disj
  | disj => conj

/-- The other operation over the opposite terms gives the opposite result. -/
theorem result_dual (op : Operation) (polarities : List Polarity) (matched : Nat → Bool) :
    op.dual.result (polarities.map Polarity.flip) matched = !op.result polarities matched := by
  cases op with
  | conj =>
    have back : (polarities.map Polarity.flip).map Polarity.flip = polarities := by
      rw [List.map_map, show Polarity.flip ∘ Polarity.flip = id from funext Polarity.flip_flip,
        List.map_id]
    rw [dual, result_disj, back]
  | disj => rw [dual, result_disj, Bool.not_not]

end Operation

namespace Step

/-- The step with the other operation and every term turned into its opposite. -/
def dual (s : Step) : Step where
  conditions := s.conditions.map fun c => { c with polarity := c.polarity.flip }
  operation := s.operation.dual
  contiguous := s.contiguous
  count := s.count

theorem polarities_dual (s : Step) : s.dual.polarities = s.polarities.map Polarity.flip := by
  rw [polarities, polarities, dual, List.map_map, List.map_map]
  rfl

/-! ## Accepted choices -/

/-- The step is passed when pattern `i` matches exactly if bit `i` of `v` is set. -/
def Accepts (s : Step) (v : Nat) : Prop := s.combination v.testBit = true

theorem accepts_iff_result {s : Step} {v : Nat} :
    s.Accepts v ↔ s.operation.result s.polarities v.testBit = true := by
  rw [Accepts, combination_eq_result]

/-- Choices that agree on the patterns with a term are accepted alike. -/
theorem accepts_congr {s : Step} {v w : Nat}
    (same : ∀ i polarity, s.polarities[i]? = some polarity → polarity ≠ .disabled →
      v.testBit i = w.testBit i) : s.Accepts v ↔ s.Accepts w := by
  rw [accepts_iff_result, accepts_iff_result, s.operation.result_congr_of_enabled same]

theorem accepts_flip {s : Step} {i : Nat} (disabled : s.polarities[i]? = some .disabled)
    (v : Nat) : s.Accepts (v ^^^ 2 ^ i) ↔ s.Accepts v := by
  refine accepts_congr fun j polarity polarityAt enabled => ?_
  have other : i ≠ j := by
    rintro rfl
    exact enabled (Option.some.inj (polarityAt.symm.trans disabled))
  rw [Nat.testBit_xor, Nat.testBit_two_pow_of_ne other, Bool.xor_false]

theorem accepts_dual {s : Step} {v : Nat} : s.dual.Accepts v ↔ ¬ s.Accepts v := by
  have operation : s.dual.operation = s.operation.dual := rfl
  rw [accepts_iff_result, accepts_iff_result, polarities_dual, operation, Operation.result_dual,
    Bool.not_eq_true', Bool.not_eq_true]

/-! ## The word -/

variable {s : Step} {word : UInt32}

theorem combinerWord?_missing_iff : s.combinerWord? = none ↔ 32 ≤ s.conditions.length ∨
    6 ≤ s.conditions.length ∧ ∃ v < 2 ^ s.conditions.length, 32 ≤ v ∧ s.Accepts v := by
  rw [combinerWord?_eq_none_iff, Nat.one_shiftLeft]
  refine or_congr_right ⟨?_, ?_⟩
  · rintro ⟨v, below, large, accepted⟩
    -- a choice beyond the last bit takes a sixth pattern
    have room : 2 ^ 5 < 2 ^ s.conditions.length := Nat.lt_of_le_of_lt large below
    have six : 6 ≤ s.conditions.length := (Nat.pow_lt_pow_iff_right (by decide)).1 room
    exact ⟨six, v, below, large, accepts_iff_result.2 accepted⟩
  · rintro ⟨-, v, below, large, accepted⟩
    exact ⟨v, below, large, accepts_iff_result.1 accepted⟩

theorem combinerWord?_bit_iff (made : s.combinerWord? = some word) (v : Nat) :
    word.toNat.testBit v = true ↔ v < 2 ^ s.conditions.length ∧ s.Accepts v := by
  rw [testBit_of_combinerWord? made, Bool.and_eq_true, decide_eq_true_eq, accepts_iff_result]

/-- Whatever the step, it has no combiner word exactly if it has 32 patterns or more, or
so many that an accepted choice of matches has a number from 32 on. Otherwise the word
is the truth table of the step: a bit is set exactly if it is the number of an accepted
choice. It never matters for that whether a disabled pattern matches, and the dual of
the step accepts exactly the choices that the step does not. -/
theorem combinerWord?_exact (s : Step) :
    (s.combinerWord? = none ↔ 32 ≤ s.conditions.length ∨
      6 ≤ s.conditions.length ∧ ∃ v < 2 ^ s.conditions.length, 32 ≤ v ∧ s.Accepts v) ∧
    (∀ word, s.combinerWord? = some word → ∀ v,
      word.toNat.testBit v = true ↔ v < 2 ^ s.conditions.length ∧ s.Accepts v) ∧
    (∀ i, s.polarities[i]? = some .disabled → ∀ v, s.Accepts (v ^^^ 2 ^ i) ↔ s.Accepts v) ∧
    ∀ v, s.dual.Accepts v ↔ ¬ s.Accepts v :=
  ⟨combinerWord?_missing_iff, fun _ made => combinerWord?_bit_iff made,
    fun _ disabled => accepts_flip disabled, fun _ => accepts_dual⟩

/-- Six patterns of which the last must not match and the second is disabled. -/
def guardedStep : Step where
  conditions := [.normal, .disabled, .inverted, .normal, .normal, .inverted].map
    fun polarity => ⟨⟨[]⟩, polarity⟩

/-- No accepted choice includes the sixth pattern, so its six patterns have a word. The
dual accepts that choice and has none. -/
theorem combinerWord?_exact_guarded :
    guardedStep.combinerWord? = some 0x0A000000 ∧
      ((0x0A000000 : UInt32).toNat.testBit 25 = true ↔
        25 < 2 ^ guardedStep.conditions.length ∧ guardedStep.Accepts 25) ∧
      guardedStep.polarities[1]? = some .disabled ∧
      (guardedStep.Accepts (25 ^^^ 2 ^ 1) ↔ guardedStep.Accepts 25) ∧
      guardedStep.dual.combinerWord? = none := by
  have made : guardedStep.combinerWord? = some 0x0A000000 := by decide +kernel
  obtain ⟨-, bits, kept, -⟩ := combinerWord?_exact guardedStep
  obtain ⟨missing, -⟩ := combinerWord?_exact guardedStep.dual
  have idle : guardedStep.polarities[1]? = some .disabled := rfl
  refine ⟨made, bits _ made 25, idle, kept 1 idle 25, missing.2 (.inr ⟨by decide, 32, ?_⟩)⟩
  exact ⟨by decide, by decide, by unfold Accepts; decide⟩

end Step

end LogicCapture
