import LogicCapture.Proofs.Image.WordBits
import Mathlib.Data.List.Basic
import Mathlib.Tactic.Push

/-!
# Combinations with one truth table

A conjunction of terms is true on a cube of matches, and a disjunction is false
on one. A cube tells all its terms: flipping the match of one pattern leaves it
exactly if that pattern has a term. So two conjunctions agree on all matches
only if their polarities are equal, and the same holds of two disjunctions. A
conjunction agrees with a disjunction only if either has a single term, and the
same one. `Operation.result_eq_result_iff` puts the three together.
-/

namespace LogicCapture

open Function

/-- The terms of all patterns but one are disabled, and that one has the given
polarity. -/
def SoleTerm (polarities : List Polarity) (index : Nat) (polarity : Polarity) : Prop :=
  polarity ≠ .disabled ∧ polarities[index]? = some polarity ∧
    ∀ i other, polarities[i]? = some other → i ≠ index → other = .disabled

/-- Combinations that no match tells apart: equal ones, or a conjunction and a
disjunction of the same single term. -/
def SameCombination (op : Operation) (p : List Polarity) (op' : Operation) (q : List Polarity) :
    Prop :=
  (op = op' ∧ p = q) ∨
    (op ≠ op' ∧ ∃ index polarity, SoleTerm p index polarity ∧ SoleTerm q index polarity)

/-! ## Conjunctions -/

namespace Operation

theorem resultFrom_conj_iff (matched : Nat → Bool) (polarities : List Polarity) (index : Nat)
    (combined : Bool) :
    conj.resultFrom matched polarities index combined = true ↔
      combined = true ∧ ∀ (i : Nat) (polarity : Polarity), polarities[i]? = some polarity →
        polarity.term conj (matched (index + i)) = true := by
  induction polarities generalizing index combined with
  | nil => simp [resultFrom]
  | cons polarity rest ih =>
    rw [resultFrom, ih, combine, Bool.and_eq_true, and_assoc]
    refine and_congr_right fun _ => ⟨?_, ?_⟩
    · rintro ⟨first, others⟩ i other otherAt
      cases i with
      | zero =>
        cases otherAt
        exact first
      | succ i =>
        rw [List.getElem?_cons_succ] at otherAt
        rw [show index + (i + 1) = index + 1 + i by omega]
        exact others i other otherAt
    · intro all
      refine ⟨all 0 polarity rfl, fun i other otherAt => ?_⟩
      rw [show index + 1 + i = index + (i + 1) by omega]
      exact all (i + 1) other otherAt

/-- A conjunction holds when every term does. -/
theorem result_conj_iff (polarities : List Polarity) (matched : Nat → Bool) :
    conj.result polarities matched = true ↔
      ∀ (i : Nat) (polarity : Polarity), polarities[i]? = some polarity →
        polarity.term conj (matched i) = true := by
  rw [result, resultFrom_conj_iff]
  simp [identity]

end Operation

/-! ## Disjunctions are conjunctions seen from the other side -/

/-- The polarity whose term holds when this one's does not. -/
def Polarity.flip : Polarity → Polarity
  | normal => inverted
  | inverted => normal
  | disabled => disabled

theorem Polarity.flip_flip (polarity : Polarity) : polarity.flip.flip = polarity := by
  cases polarity <;> rfl

theorem Polarity.map_flip_injective : Injective (List.map Polarity.flip) :=
  List.map_injective_iff.2 (LeftInverse.injective Polarity.flip_flip)

namespace Operation

theorem resultFrom_disj (matched : Nat → Bool) (polarities : List Polarity) (index : Nat)
    (combined : Bool) :
    disj.resultFrom matched polarities index combined =
      !conj.resultFrom matched (polarities.map Polarity.flip) index (!combined) := by
  induction polarities generalizing index combined with
  | nil => simp [resultFrom]
  | cons polarity rest ih =>
    have step : (!disj.combine combined (polarity.term disj (matched index))) =
        conj.combine (!combined) (polarity.flip.term conj (matched index)) := by
      cases polarity <;> simp [combine, Polarity.term, Polarity.flip, identity]
    rw [resultFrom, ih, step, List.map_cons, resultFrom]

theorem result_disj (polarities : List Polarity) (matched : Nat → Bool) :
    disj.result polarities matched =
      !conj.result (polarities.map Polarity.flip) matched :=
  resultFrom_disj matched polarities 0 false

/-! ## Cubes -/

/-- Matches at which every term holds. -/
def matchesOf (polarities : List Polarity) (i : Nat) : Bool :=
  decide (polarities[i]? ≠ some .inverted)

theorem result_matchesOf (polarities : List Polarity) :
    conj.result polarities (matchesOf polarities) = true := by
  rw [result_conj_iff]
  intro i polarity polarityAt
  cases polarity <;> simp [matchesOf, polarityAt, Polarity.term, identity]

/-- From matches of a cube, flipping one match stays in the cube exactly if that
pattern has no term. -/
theorem result_update_iff {polarities : List Polarity} {matched : Nat → Bool}
    (holds : conj.result polarities matched = true) {i : Nat} {polarity : Polarity}
    (polarityAt : polarities[i]? = some polarity) :
    conj.result polarities (update matched i (!matched i)) = true ↔ polarity = .disabled := by
  rw [result_conj_iff] at holds ⊢
  have own := holds i polarity polarityAt
  constructor
  · intro all
    have flipped := all i polarity polarityAt
    rw [update_self] at flipped
    cases polarity with
    | normal => simp_all [Polarity.term]
    | inverted => simp_all [Polarity.term]
    | disabled => rfl
  · rintro rfl j other otherAt
    by_cases eq : j = i
    · subst eq
      rw [polarityAt] at otherAt
      cases otherAt
      rfl
    · rw [update_of_ne eq]
      exact holds j other otherAt

/-- Conjunctions with one truth table have the same terms. -/
theorem polarities_eq_of_conj {p q : List Polarity} (length : p.length = q.length)
    (same : ∀ matched, conj.result p matched = conj.result q matched) : p = q := by
  apply List.ext_getElem length
  intro i iLt jLt
  have pAt : p[i]? = some p[i] := List.getElem?_eq_getElem iLt
  have qAt : q[i]? = some q[i] := List.getElem?_eq_getElem jLt
  have inP := result_matchesOf p
  have inQ := inP
  rw [same] at inQ
  have disabledIff : p[i] = .disabled ↔ q[i] = .disabled := by
    rw [← result_update_iff inP pAt, same, result_update_iff inQ qAt]
  have termP := (result_conj_iff p _).1 inP i _ pAt
  have termQ := (result_conj_iff q _).1 inQ i _ qAt
  revert disabledIff termP termQ
  generalize matchesOf p i = found
  cases p[i] <;> cases q[i] <;> cases found <;> simp [Polarity.term]

/-- Disjunctions with one truth table have the same terms. -/
theorem polarities_eq_of_disj {p q : List Polarity} (length : p.length = q.length)
    (same : ∀ matched, disj.result p matched = disj.result q matched) : p = q := by
  apply Polarity.map_flip_injective
  apply polarities_eq_of_conj (by simpa using length)
  intro matched
  rw [← Bool.not_inj_iff, ← result_disj, ← result_disj]
  exact same matched

/-! ## A cube that is the outside of a cube -/

theorem exists_violated {q : List Polarity} {matched : Nat → Bool}
    (fails : conj.result q matched = false) :
    ∃ (i : Nat) (polarity : Polarity), q[i]? = some polarity ∧
      polarity.term conj (matched i) = false := by
  rw [← Bool.not_eq_true, result_conj_iff] at fails
  push Not at fails
  obtain ⟨i, polarity, polarityAt, fails⟩ := fails
  exact ⟨i, polarity, polarityAt, Bool.of_not_eq_true fails⟩

/-- If one cube is where another is not, every term of the first is about the
pattern of a term that the second misses there. -/
theorem eq_of_violated {p q : List Polarity}
    (opposite : ∀ matched, conj.result p matched = !conj.result q matched) {matched : Nat → Bool}
    (inside : conj.result p matched = true) {j : Nat} {missed : Polarity}
    (missedAt : q[j]? = some missed) (violated : missed.term conj (matched j) = false)
    {i : Nat} {polarity : Polarity} (polarityAt : p[i]? = some polarity)
    (enabled : polarity ≠ .disabled) : i = j := by
  by_contra ne
  have left : conj.result p (update matched i (!matched i)) = false := by
    rw [← Bool.not_eq_true, result_update_iff inside polarityAt]
    exact enabled
  have entered : conj.result q (update matched i (!matched i)) = true := by
    rw [opposite, Bool.not_eq_false'] at left
    exact left
  have kept := (result_conj_iff q _).1 entered j missed missedAt
  rw [update_of_ne (Ne.symm ne), violated] at kept
  exact absurd kept (by decide)

/-- Both cubes then have a single term, of the same pattern, and these terms are
opposite. -/
theorem soleTerm_of_opposite {p q : List Polarity}
    (opposite : ∀ matched, conj.result p matched = !conj.result q matched) :
    ∃ i polarity, SoleTerm p i polarity ∧ SoleTerm q i polarity.flip := by
  have inP := result_matchesOf p
  have outQ : conj.result q (matchesOf p) = false := by
    rw [opposite, Bool.not_eq_true'] at inP
    exact inP
  have inQ := result_matchesOf q
  have outP : conj.result p (matchesOf q) = false := by rw [opposite, inQ]; rfl
  obtain ⟨j, missed, missedAt, violated⟩ := exists_violated outQ
  obtain ⟨i, polarity, polarityAt, violated'⟩ := exists_violated outP
  have enabled : polarity ≠ .disabled := by
    rintro rfl
    cases violated'
  have enabled' : missed ≠ .disabled := by
    rintro rfl
    cases violated
  obtain rfl : i = j := eq_of_violated opposite inP missedAt violated polarityAt enabled
  have holds := (result_conj_iff p _).1 inP i _ polarityAt
  have opposite' : ∀ matched, conj.result q matched = !conj.result p matched := fun matched => by
    rw [opposite, Bool.not_not]
  have missedEq : missed = polarity.flip := by
    revert holds violated enabled enabled'
    generalize matchesOf p i = found
    cases missed <;> cases polarity <;> cases found <;> simp [Polarity.term, Polarity.flip]
  subst missedEq
  refine ⟨i, polarity, ⟨enabled, polarityAt, fun k other otherAt ne => ?_⟩,
    ⟨enabled', missedAt, fun k other otherAt ne => ?_⟩⟩
  · by_contra active
    exact ne (eq_of_violated opposite inP missedAt violated otherAt active)
  · by_contra active
    exact ne (eq_of_violated opposite' inQ polarityAt violated' otherAt active)

end Operation

/-! ## The classification -/

theorem SoleTerm.map_flip {polarities : List Polarity} {index : Nat} {polarity : Polarity}
    (sole : SoleTerm polarities index polarity) :
    SoleTerm (polarities.map Polarity.flip) index polarity.flip := by
  obtain ⟨enabled, polarityAt, others⟩ := sole
  refine ⟨?_, by rw [List.getElem?_map, polarityAt]; rfl, fun i other otherAt ne => ?_⟩
  · cases polarity <;> simp_all [Polarity.flip]
  · rw [List.getElem?_map] at otherAt
    obtain ⟨original, originalAt, rfl⟩ := Option.map_eq_some_iff.1 otherAt
    rw [others i original originalAt ne]
    rfl

/-- With a single term, either operation gives that term. -/
theorem SoleTerm.result_conj {polarities : List Polarity} {index : Nat} {polarity : Polarity}
    (sole : SoleTerm polarities index polarity) (matched : Nat → Bool) :
    Operation.conj.result polarities matched = polarity.term .conj (matched index) := by
  obtain ⟨_, polarityAt, others⟩ := sole
  rw [Bool.eq_iff_iff, Operation.result_conj_iff]
  constructor
  · exact fun all => all index polarity polarityAt
  · intro holds i other otherAt
    by_cases eq : i = index
    · subst eq
      rw [polarityAt] at otherAt
      cases otherAt
      exact holds
    · rw [others i other otherAt eq]
      rfl

theorem SoleTerm.result_disj {polarities : List Polarity} {index : Nat} {polarity : Polarity}
    (sole : SoleTerm polarities index polarity) (matched : Nat → Bool) :
    Operation.disj.result polarities matched = polarity.term .conj (matched index) := by
  rw [Operation.result_disj, sole.map_flip.result_conj]
  have enabled := sole.1
  cases polarity <;> simp_all [Polarity.term, Polarity.flip]

theorem soleTerm_of_conj_eq_disj {p q : List Polarity}
    (same : ∀ matched, Operation.conj.result p matched = Operation.disj.result q matched) :
    ∃ index polarity, SoleTerm p index polarity ∧ SoleTerm q index polarity := by
  have opposite : ∀ matched, Operation.conj.result p matched =
      !Operation.conj.result (q.map Polarity.flip) matched := fun matched => by
    rw [same, Operation.result_disj]
  obtain ⟨index, polarity, soleP, soleQ⟩ :=
    Operation.soleTerm_of_opposite opposite
  have back := soleQ.map_flip
  rw [List.map_map, Polarity.flip_flip,
    show Polarity.flip ∘ Polarity.flip = id from funext Polarity.flip_flip, List.map_id] at back
  exact ⟨index, polarity, soleP, back⟩

/-- Two combinations of equally many patterns agree on all matches exactly if
they are the same. -/
theorem Operation.result_eq_result_iff {op op' : Operation} {p q : List Polarity}
    (length : p.length = q.length) :
    (∀ matched, op.result p matched = op'.result q matched) ↔ SameCombination op p op' q := by
  constructor
  · intro same
    cases op with
    | conj =>
      cases op' with
      | conj => exact Or.inl ⟨rfl, polarities_eq_of_conj length same⟩
      | disj => exact Or.inr ⟨by decide, soleTerm_of_conj_eq_disj same⟩
    | disj =>
      cases op' with
      | conj =>
        obtain ⟨index, polarity, soleQ, soleP⟩ :=
          soleTerm_of_conj_eq_disj fun matched => (same matched).symm
        exact Or.inr ⟨by decide, index, polarity, soleP, soleQ⟩
      | disj => exact Or.inl ⟨rfl, polarities_eq_of_disj length same⟩
  · rintro (⟨rfl, rfl⟩ | ⟨ne, index, polarity, soleP, soleQ⟩) matched
    · rfl
    · cases op with
      | conj =>
        cases op' with
        | conj => exact absurd rfl ne
        | disj => rw [soleP.result_conj, soleQ.result_disj]
      | disj =>
        cases op' with
        | conj => rw [soleP.result_disj, soleQ.result_conj]
        | disj => exact absurd rfl ne

end LogicCapture
