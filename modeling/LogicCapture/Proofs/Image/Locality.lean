import LogicCapture.Proofs.Image.CountPlanes

/-!
# Edits are local

The words of an image fall into those of the slots, each with its block of matchers
and its combiner, and the planes, in which every step has a bit of its own. What a
slot or a bit holds follows from one step. So an edit shows only where the step that
it changes is: `Program.edits_local`.
-/

namespace LogicCapture

/-- The place is in the region. -/
def Region.Holds (r : Region) (place : Nat) : Prop := r.start ≤ place ∧ place < r.stop

/-! ## Places of a slot -/

namespace Geometry

variable {g : Geometry}

/-- The block of matcher words of slot `slot`. -/
def blockRegion (g : Geometry) (slot : Nat) : Region :=
  ⟨g.matcherRegion.start + slot * g.wordsPerStep,
    g.matcherRegion.start + slot * g.wordsPerStep + g.wordsPerStep⟩

/-- The place is in the block of the slot, or it is that of its combiner. -/
def OfSlot (g : Geometry) (slot place : Nat) : Prop :=
  (g.blockRegion slot).Holds place ∨ place = g.combinerIndex slot

/-- The places before the planes are those of the slots. -/
theorem exists_ofSlot {place : Nat} (before : place < g.countRegion.start) :
    ∃ s < g.stepSlots, g.OfSlot (g.stepSlots - 1 - s) place := by
  have turned : ∀ slot < g.stepSlots, g.OfSlot slot place →
      ∃ s < g.stepSlots, g.OfSlot (g.stepSlots - 1 - s) place := by
    intro slot lt ofSlot
    refine ⟨g.stepSlots - 1 - slot, by omega, ?_⟩
    rwa [show g.stepSlots - 1 - (g.stepSlots - 1 - slot) = slot by omega]
  have planes : g.countRegion.start = g.combinerRegion.start + g.stepSlots := rfl
  rcases Nat.lt_or_ge place g.combinerRegion.start with matcher | combiner
  · have room : place < g.stepSlots * g.wordsPerStep := matcher
    have some_words : 0 < g.wordsPerStep := Nat.pos_of_mul_pos_left (Nat.zero_lt_of_lt room)
    have split := Nat.div_add_mod' place g.wordsPerStep
    have offset := Nat.mod_lt place some_words
    refine turned (place / g.wordsPerStep) (Nat.div_lt_of_lt_mul (Nat.mul_comm _ _ ▸ room))
      (.inl ⟨?_, ?_⟩)
    · change 0 + _ ≤ place
      omega
    · change place < 0 + _ + _
      omega
  · exact turned (place - g.combinerRegion.start) (by omega) (.inr (by
      rw [combinerIndex]
      omega))

end Geometry

namespace Program

variable {p q : Program} {s : Nat}

/-! ## What the words follow from -/

/-- The block of a slot holds the matcher words of its step. -/
theorem getElem?_block (p : Program) (within : s < p.geometry.stepSlots) {offset : Nat}
    (lt : offset < p.geometry.wordsPerStep) :
    p.compile.words[(p.geometry.blockRegion (p.geometry.stepSlots - 1 - s)).start + offset]? =
      (p.slots[s]?.bind (·.matcherWords? p.geometry.wordsPerStep)).bind (·[offset]?) := by
  obtain ⟨blocks, collected, sized, matchers⟩ := p.matchers_blocks
  have inside : (p.geometry.stepSlots - 1 - s) * p.geometry.wordsPerStep +
      p.geometry.wordsPerStep ≤ p.geometry.stepSlots * p.geometry.wordsPerStep := by
    rw [← Nat.succ_mul]
    exact Nat.mul_le_mul_right _ (by omega)
  have start : (p.geometry.blockRegion (p.geometry.stepSlots - 1 - s)).start + offset =
      (p.geometry.stepSlots - 1 - s) * p.geometry.wordsPerStep + offset := by
    change 0 + _ + offset = _
    omega
  have place : (p.geometry.stepSlots - 1 - s) * p.geometry.wordsPerStep + offset <
      p.geometry.matcherRegion.stop := by
    change _ < p.geometry.stepSlots * p.geometry.wordsPerStep
    omega
  rw [start, p.getElem?_words_matchers place, matchers, getElem?_flatten_of_blocks sized _ lt,
    getElem?_of_mapM collected, p.getElem?_reverse_slots within]

/-- The two programs have the same words in the slot of step `s`. -/
def SameSlot (p q : Program) (s : Nat) : Prop :=
  ∀ place, p.geometry.OfSlot (p.geometry.stepSlots - 1 - s) place →
    q.compile.words[place]? = p.compile.words[place]?

/-- The two programs have the same bits of step `s` in the count words and in the word
of contiguous steps. -/
def SameBits (p q : Program) (s : Nat) : Prop :=
  ∀ place, p.geometry.countRegion.Holds place ∨ place = p.geometry.flagRegion.start + 1 →
    q.engine.bitAt place s = p.engine.bitAt place s

/-- The words of a slot follow from what the slot holds. -/
theorem sameSlot_of_slots (geometry : q.geometry = p.geometry) (within : s < p.geometry.stepSlots)
    (slots : q.slots[s]? = p.slots[s]?) : SameSlot p q s := by
  rintro place (⟨start, stop⟩ | rfl)
  · obtain ⟨offset, rfl⟩ := Nat.exists_eq_add_of_le start
    have lt : offset < p.geometry.wordsPerStep := by
      change _ < (p.geometry.blockRegion (p.geometry.stepSlots - 1 - s)).start + _ at stop
      omega
    have words := q.getElem?_block (geometry.symm ▸ within) (geometry.symm ▸ lt)
    rw [geometry, slots] at words
    rw [words, p.getElem?_block within lt]
  · have word := q.getElem?_combinerIndex (geometry.symm ▸ within)
    rw [geometry, slots] at word
    rw [word, p.getElem?_combinerIndex within]

/-- The bits of a step follow from the step, if it is active. -/
theorem sameBits_of_active (geometry : q.geometry = p.geometry)
    (active : q.active[s]? = p.active[s]?) : SameBits p q s := by
  rintro place (⟨start, stop⟩ | rfl)
  · have width := p.geometry.counterBits_eq
    have region : p.geometry.countRegion.stop =
        p.geometry.countRegion.start + p.geometry.counterBits := rfl
    obtain ⟨bit, lt, rfl⟩ : ∃ bit < 16, p.geometry.countRegion.start + (15 - bit) = place :=
      ⟨15 - (place - p.geometry.countRegion.start), by omega, by omega⟩
    have bits := q.bitAt_counts lt s
    rw [geometry, active] at bits
    rw [bits, p.bitAt_counts lt]
  · obtain ⟨-, mask, maskAt, bits⟩ := p.flags_at_places
    obtain ⟨-, mask', maskAt', bits'⟩ := q.flags_at_places
    rw [geometry] at maskAt'
    rw [Engine.bitAt, Engine.bitAt, engine_words, engine_words, maskAt, maskAt', Option.any_some,
      Option.any_some, bits, bits', active]

/-- The image follows from the active steps. -/
theorem compile_of_active (geometry : q.geometry = p.geometry) (active : q.active = p.active) :
    q.compile = p.compile := by
  apply Option.some.inj
  rw [← compile?_eq_some, ← compile?_eq_some, compile?, compile?, slots, slots, active, geometry]

/-! ## One step set -/

theorem parts_of_setStep {i : Nat} {step : Step} (set : setStep i step p = .ok () q) :
    q.geometry = p.geometry ∧ q.steps = p.steps.set i step ∧ q.last = p.last := by
  rw [setStep_run] at set
  split at set
  · split at set
    · cases set
      exact ⟨rfl, rfl, rfl⟩
    · cases set
  · cases set

theorem getElem?_active_of_setStep {i : Nat} {step : Step} (set : setStep i step p = .ok () q)
    (other : s ≠ i) : q.active[s]? = p.active[s]? := by
  obtain ⟨-, steps, last⟩ := parts_of_setStep set
  rw [active, active, List.getElem?_take, List.getElem?_take, steps, last,
    List.getElem?_set_ne other.symm]

theorem getElem?_slots_of_setStep {i : Nat} {step : Step} (set : setStep i step p = .ok () q)
    (within : s < p.geometry.stepSlots) (other : s ≠ i) : q.slots[s]? = p.slots[s]? := by
  obtain ⟨geometry, steps, last⟩ := parts_of_setStep set
  rcases Nat.lt_or_ge p.last s with behind | active
  · rw [p.getElem?_slots_of_lt behind within, q.getElem?_slots_of_lt (last ▸ behind)
      (geometry.symm ▸ within), geometry]
  · rw [p.getElem?_slots_of_le active, q.getElem?_slots_of_le (last.symm ▸ active), steps,
      List.getElem?_set_ne other.symm]

/-- A step behind the last active one does not show in the image. -/
theorem compile_of_setStep_behind {i : Nat} {step : Step} (set : setStep i step p = .ok () q)
    (behind : p.last < i) : q.compile = p.compile := by
  obtain ⟨geometry, steps, last⟩ := parts_of_setStep set
  refine compile_of_active geometry ?_
  rw [active, active, steps, last, List.take_set_of_le behind]

/-! ## Another last step -/

theorem parts_of_setLast {j : Nat} (set : setLast j p = .ok () q) :
    q.geometry = p.geometry ∧ q.steps = p.steps ∧ q.last = j := by
  rw [setLast_run] at set
  split at set
  · cases set
    exact ⟨rfl, rfl, rfl⟩
  · cases set

/-- A step that is active with the one last step and with the other stays active, and
one that is so with neither stays behind. -/
theorem getElem?_active_of_setLast {j : Nat} (set : setLast j p = .ok () q)
    (settled : s ≤ min p.last j ∨ max p.last j < s) : q.active[s]? = p.active[s]? := by
  obtain ⟨-, steps, last⟩ := parts_of_setLast set
  rcases settled with within | behind
  · rw [getElem?_active (by omega), getElem?_active (by omega), steps]
  · rw [getElem?_active_of_lt (by omega), getElem?_active_of_lt (by omega)]

theorem getElem?_slots_of_setLast {j : Nat} (set : setLast j p = .ok () q)
    (within : s < p.geometry.stepSlots) (settled : s ≤ min p.last j ∨ max p.last j < s) :
    q.slots[s]? = p.slots[s]? := by
  obtain ⟨geometry, steps, last⟩ := parts_of_setLast set
  rcases settled with active | behind
  · rw [p.getElem?_slots_of_le (by omega), q.getElem?_slots_of_le (by omega), steps]
  · rw [p.getElem?_slots_of_lt (by omega) within,
      q.getElem?_slots_of_lt (by omega) (geometry.symm ▸ within), geometry]

/-! ## Two steps set -/

theorem ext_parts (geometry : q.geometry = p.geometry) (steps : q.steps = p.steps)
    (last : q.last = p.last) (settings : q.settings = p.settings) : q = p := by
  cases p
  cases q
  cases geometry
  cases steps
  cases last
  cases settings
  rfl

/-- The call puts the step into its slot if it fits; out of range there is none. -/
theorem parts_of_edit_step (p : Program) (i : Nat) (step : Step) :
    (p.edit (.step i step)).steps =
        (if step.Fits p.geometry then p.steps.set i step else p.steps) ∧
      (p.edit (.step i step)).last = p.last ∧ (p.edit (.step i step)).settings = p.settings := by
  rw [edit, attempt]
  by_cases fits : step.Fits p.geometry
  · rw [if_pos fits]
    rcases Nat.lt_or_ge i p.geometry.stepSlots with within | beyond
    · obtain ⟨q, set, -, steps, last, settings⟩ := setStep_of_fits fits within
      rw [set]
      exact ⟨steps, last, settings⟩
    · rw [setStep_of_beyond fits beyond]
      exact ⟨(List.set_eq_of_length_le (p.steps_length ▸ beyond)).symm, rfl, rfl⟩
  · rw [setStep_of_misfit fits, if_neg fits]
    exact ⟨rfl, rfl, rfl⟩

/-- Steps set in two slots are set in either order. -/
theorem edit_step_comm (p : Program) {i j : Nat} (apart : i ≠ j) (a b : Step) :
    (p.edit (.step i a)).edit (.step j b) = (p.edit (.step j b)).edit (.step i a) := by
  obtain ⟨steps_a, last_a, settings_a⟩ := p.parts_of_edit_step i a
  obtain ⟨steps_b, last_b, settings_b⟩ := p.parts_of_edit_step j b
  obtain ⟨steps_ab, last_ab, settings_ab⟩ := (p.edit (.step i a)).parts_of_edit_step j b
  obtain ⟨steps_ba, last_ba, settings_ba⟩ := (p.edit (.step j b)).parts_of_edit_step i a
  refine ext_parts ?_ ?_ ?_ ?_
  · rw [edit_geometry, edit_geometry, edit_geometry, edit_geometry]
  · rw [steps_ab, steps_ba, steps_a, steps_b, edit_geometry, edit_geometry]
    split
    · split
      · exact List.set_comm _ _ apart
      · rfl
    · rfl
  · rw [last_ab, last_ba, last_a, last_b]
  · rw [settings_ab, settings_ba, settings_a, settings_b]

/-! ## What an edit leaves as it is -/

/-- An edit shows in the words only where the steps are that it changes. A step that
is set in an active slot shows in the words of that slot and in its own bits of the
planes, and one that is set behind the last active step not at all. Another last step
shows in the slots and bits of the steps that begin or cease to be active, and in the
word that tells the last step. Steps set in different slots make the same image in
either order. -/
theorem edits_local (p : Program) :
    (∀ i step q, setStep i step p = .ok () q →
      q.compile.words.length = p.compile.words.length ∧
      (i ≤ p.last →
        (∀ place < p.geometry.countRegion.start,
          ¬ p.geometry.OfSlot (p.geometry.stepSlots - 1 - i) place →
            q.compile.words[place]? = p.compile.words[place]?) ∧
        (∀ s, s ≠ i → SameBits p q s) ∧
        q.compile.words[p.geometry.flagRegion.start]? =
          p.compile.words[p.geometry.flagRegion.start]?) ∧
      (p.last < i → q.compile.words = p.compile.words)) ∧
    (∀ j q, setLast j p = .ok () q →
      q.compile.words.length = p.compile.words.length ∧
      (∀ s < p.geometry.stepSlots, s ≤ min p.last j ∨ max p.last j < s → SameSlot p q s) ∧
      ∀ s, s ≤ min p.last j ∨ max p.last j < s → SameBits p q s) ∧
    ∀ i j a b, i ≠ j → ((p.edit (.step i a)).edit (.step j b)).compile.words =
      ((p.edit (.step j b)).edit (.step i a)).compile.words := by
  refine ⟨fun i step q set => ?_, fun j q set => ?_, fun i j a b apart => ?_⟩
  · obtain ⟨geometry, -, last⟩ := parts_of_setStep set
    refine ⟨by rw [length_words, length_words, geometry], fun _ => ⟨?_, ?_, ?_⟩,
      fun behind => congrArg Image.words (compile_of_setStep_behind set behind)⟩
    · intro place before notOf
      obtain ⟨s, within, ofSlot⟩ := Geometry.exists_ofSlot before
      have other : s ≠ i := fun same => notOf (same ▸ ofSlot)
      exact sameSlot_of_slots geometry within (getElem?_slots_of_setStep set within other) place
        ofSlot
    · exact fun s other => sameBits_of_active geometry (getElem?_active_of_setStep set other)
    · have flag := q.flags_at_places.1
      rw [geometry, last] at flag
      rw [flag, p.flags_at_places.1]
  · obtain ⟨geometry, -, -⟩ := parts_of_setLast set
    refine ⟨by rw [length_words, length_words, geometry], fun s within settled => ?_,
      fun s settled => ?_⟩
    · exact sameSlot_of_slots geometry within (getElem?_slots_of_setLast set within settled)
    · exact sameBits_of_active geometry (getElem?_active_of_setLast set settled)
  · rw [p.edit_step_comm apart]

/-- Of two active steps the first is set; the words of the second stay. -/
theorem edits_local_firstStep :
    ∃ q, setStep 0 thirdMatch edited = .ok () q ∧ q.steps = [thirdMatch, thirdMatch] ∧
      q.compile.words[0]? = edited.compile.words[0]? ∧ SameBits edited q 1 := by
  have fits : thirdMatch.Fits edited.geometry := by decide
  have within : 0 < edited.geometry.stepSlots := by decide
  obtain ⟨q, set, -, steps, -⟩ := setStep_of_fits fits within
  obtain ⟨-, active, -⟩ := (edits_local edited).1 0 thirdMatch q set
  obtain ⟨slots, bits, -⟩ := active (Nat.zero_le _)
  refine ⟨q, set, steps, slots 0 (by decide) ?_, bits 1 Nat.one_ne_zero⟩
  -- the first word belongs to the slot of the second step
  rintro (⟨start, -⟩ | combiner)
  · exact absurd start (by decide)
  · exact absurd combiner (by decide)

end Program

end LogicCapture
