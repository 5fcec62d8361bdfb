import LogicCapture.Proofs.Actions
import LogicCapture.Proofs.Image.InPlace
import Mathlib.Data.List.Induction

/-!
# Editing programs

A program starts out with neutral steps or from a list of steps, and is then edited
call by call. `Program.contract_of_edited` says what every such program guarantees:
it has a step for each slot of its engine, all of them fit, the last active one is
there, and so it can be compiled in place without any check failing. The outcome of
each call is told exactly, that of building a program from steps too.
-/

namespace LogicCapture

/-- A call that changes a program. -/
inductive Edit where
  | step (index : Nat) (step : Step)
  | last (index : Nat)
  | settings (settings : Settings)

namespace Program

/-- What the call does to a program. -/
def attempt : Edit → EStateM TriggerError Program Unit
  | .step index step => setStep index step
  | .last index => setLast index
  | .settings settings => setSettings settings

/-- The program after the call, whether it has failed or not. -/
def edit (p : Program) (e : Edit) : Program :=
  match attempt e p with
  | .ok _ q => q
  | .error _ q => q

variable {p q : Program} {g : Geometry} {steps : List Step} {settings : Settings}

/-! ## Single calls -/

/-- What setting a step comes to. -/
theorem setStep_run (p : Program) (index : Nat) (step : Step) : setStep index step p =
    if fits : step.Fits p.geometry then
      if index < p.geometry.stepSlots then .ok () (p.withStep index fits)
      else .error (.noSuchStep index p.geometry.stepSlots) p
    else .error .geometryMismatch p := by
  change (dite (step.Fits p.geometry) _ _ : EStateM TriggerError Program Unit) p = _
  rw [p.steps_length]
  split
  · split
    · rfl
    · rfl
  · rfl

theorem setLast_run (p : Program) (index : Nat) : setLast index p =
    if within : index < p.steps.length then .ok () (p.withLast within)
    else .error (.noSuchStep index p.geometry.stepSlots) p := by
  change (dite (index < p.steps.length) _ _ : EStateM TriggerError Program Unit) p = _
  rw [← p.steps_length]
  split
  · rfl
  · rfl

theorem setStep_of_misfit {step : Step} (misfit : ¬ step.Fits p.geometry) (index : Nat) :
    setStep index step p = .error .geometryMismatch p := by
  rw [setStep_run, dif_neg misfit]

theorem setStep_of_beyond {step : Step} {index : Nat} (fits : step.Fits p.geometry)
    (beyond : p.geometry.stepSlots ≤ index) :
    setStep index step p = .error (.noSuchStep index p.geometry.stepSlots) p := by
  rw [setStep_run, dif_pos fits, if_neg (Nat.not_lt_of_le beyond)]

/-- A step that fits goes into its slot, and nothing else changes. -/
theorem setStep_of_fits {step : Step} {index : Nat} (fits : step.Fits p.geometry)
    (within : index < p.geometry.stepSlots) :
    ∃ q, setStep index step p = .ok () q ∧ q.geometry = p.geometry ∧
      q.steps = p.steps.set index step ∧ q.last = p.last ∧ q.settings = p.settings := by
  rw [setStep_run, dif_pos fits, if_pos within]
  exact ⟨_, rfl, rfl, rfl, rfl, rfl⟩

theorem setLast_of_beyond {index : Nat} (beyond : p.geometry.stepSlots ≤ index) :
    setLast index p = .error (.noSuchStep index p.geometry.stepSlots) p := by
  rw [setLast_run, dif_neg (Nat.not_lt_of_le (p.steps_length ▸ beyond))]

theorem setLast_of_within {index : Nat} (within : index < p.geometry.stepSlots) :
    ∃ q, setLast index p = .ok () q ∧ q.geometry = p.geometry ∧ q.steps = p.steps ∧
      q.last = index ∧ q.settings = p.settings := by
  rw [setLast_run, dif_pos (p.steps_length ▸ within)]
  exact ⟨_, rfl, rfl, rfl, rfl, rfl⟩

/-- A call that fails has changed nothing. -/
theorem unchanged_of_failed {e : Edit} {error : TriggerError}
    (failed : attempt e p = .error error q) : q = p := by
  cases e with
  | step index step =>
    rw [attempt, setStep_run] at failed
    split at failed
    · split at failed
      · cases failed
      · cases failed
        rfl
    · cases failed
      rfl
  | last index =>
    rw [attempt, setLast_run] at failed
    split at failed
    · cases failed
    · cases failed
      rfl
  | settings settings => cases failed

theorem edit_of_failed {e : Edit} {error : TriggerError} (failed : attempt e p = .error error q) :
    p.edit e = p := by
  rw [edit, failed]
  exact unchanged_of_failed failed

/-- A call keeps the engine that the program is for. -/
theorem edit_geometry (p : Program) (e : Edit) : (p.edit e).geometry = p.geometry := by
  cases e with
  | step index step =>
    rw [edit, attempt, setStep_run]
    by_cases fits : step.Fits p.geometry
    · rw [dif_pos fits]
      by_cases within : index < p.geometry.stepSlots
      · rw [if_pos within]
        rfl
      · rw [if_neg within]
    · rw [dif_neg fits]
  | last index =>
    rw [edit, attempt, setLast_run]
    by_cases within : index < p.steps.length
    · rw [dif_pos within]
      rfl
    · rw [dif_neg within]
  | settings settings => rfl

/-! ## Building a program from steps -/

theorem setStepsFrom_append (index : Nat) (front back : List Step) :
    setStepsFrom index (front ++ back) =
      (do setStepsFrom index front; setStepsFrom (index + front.length) back) := by
  induction front generalizing index with
  | nil => rfl
  | cons step front ih =>
    rw [List.cons_append, setStepsFrom, setStepsFrom, bind_assoc, ih, List.length_cons,
      Nat.add_assoc, Nat.add_comm 1]

/-- Steps that fit and have a slot each go into their slots, and nothing else
changes. -/
theorem setStepsFrom_of_fit {index : Nat} (fit : ∀ step ∈ steps, step.Fits p.geometry)
    (room : index + steps.length ≤ p.geometry.stepSlots) :
    ∃ q, setStepsFrom index steps p = .ok () q ∧ q.geometry = p.geometry ∧
      q.steps = p.steps.take index ++ steps ++ p.steps.drop (index + steps.length) ∧
      q.last = p.last ∧ q.settings = p.settings := by
  induction steps generalizing p index with
  | nil =>
    refine ⟨p, rfl, rfl, ?_, rfl, rfl⟩
    rw [List.append_nil]
    exact (List.take_append_drop _ _).symm
  | cons step rest ih =>
    rw [List.length_cons] at room
    have has_slot : index < p.geometry.stepSlots := by omega
    obtain ⟨next, set, geometry, next_steps, next_last, next_settings⟩ :=
      setStep_of_fits (fit step List.mem_cons_self) has_slot
    have rest_fit : ∀ s ∈ rest, s.Fits next.geometry := fun s mem =>
      geometry ▸ fit s (List.mem_cons_of_mem step mem)
    have rest_room : index + 1 + rest.length ≤ next.geometry.stepSlots := by
      rw [geometry]
      omega
    obtain ⟨q, others, q_geometry, q_steps, q_last, q_settings⟩ := ih rest_fit rest_room
    refine ⟨q, (bind_of_ok set).trans others, q_geometry.trans geometry, ?_,
      q_last.trans next_last, q_settings.trans next_settings⟩
    have within : index < p.steps.length := by
      rw [p.steps_length]
      omega
    rw [q_steps, next_steps, List.take_add_one, List.take_set_of_le (Nat.le_refl index),
      List.getElem?_set_self within, List.drop_set_of_lt (by omega), List.length_cons,
      Nat.add_assoc index, Nat.add_comm 1]
    simp only [Option.toList_some, List.append_assoc, List.cons_append, List.nil_append]

/-- The error of the first step of a list that cannot be put into its slot: it does
not fit, or it does but the slots are used up. -/
def FirstRefused (g : Geometry) (steps : List Step) (error : TriggerError) : Prop :=
  ∃ front step back, steps = front ++ step :: back ∧
    front.length ≤ g.stepSlots ∧ (∀ s ∈ front, s.Fits g) ∧
    (¬ step.Fits g ∧ error = .geometryMismatch ∨
      step.Fits g ∧ front.length = g.stepSlots ∧ error = .noSuchStep g.stepSlots g.stepSlots)

/-- A list that does not fit as a whole has a first step that is refused. -/
theorem exists_firstRefused
    (refused : ¬ (steps.length ≤ g.stepSlots ∧ ∀ step ∈ steps, step.Fits g)) :
    ∃ error, FirstRefused g steps error := by
  induction steps using List.reverseRecOn with
  | nil => exact absurd ⟨Nat.zero_le _, fun _ mem => absurd mem List.not_mem_nil⟩ refused
  | append_singleton front step ih =>
    by_cases fine : front.length ≤ g.stepSlots ∧ ∀ s ∈ front, s.Fits g
    · by_cases fits : step.Fits g
      · have full : front.length = g.stepSlots := by
          refine Nat.le_antisymm fine.1 (Nat.le_of_not_lt fun room => refused ⟨?_, ?_⟩)
          · rwa [List.length_append, List.length_singleton]
          · intro s mem
            rcases List.mem_append.1 mem with old | new
            · exact fine.2 s old
            · exact List.mem_singleton.1 new ▸ fits
        exact ⟨_, front, step, [], rfl, fine.1, fine.2, .inr ⟨fits, full, rfl⟩⟩
      · exact ⟨_, front, step, [], rfl, fine.1, fine.2, .inl ⟨fits, rfl⟩⟩
    · obtain ⟨error, before, at_fault, behind, rfl, few, fit, why⟩ := ih fine
      refine ⟨error, before, at_fault, behind ++ [step], ?_, few, fit, why⟩
      rw [List.append_assoc, List.cons_append]

theorem ofSteps_of_filled (some_steps : steps ≠ []) (filled : fill steps (make g settings) = .ok () q) :
    ofSteps g steps settings = .ok q := by
  obtain ⟨step, rest, rfl⟩ := List.exists_cons_of_ne_nil some_steps
  rw [ofSteps, filled]
  rfl

theorem ofSteps_of_unfilled {error : TriggerError} (some_steps : steps ≠ [])
    (failed : fill steps (make g settings) = .error error q) :
    ofSteps g steps settings = .error error := by
  obtain ⟨step, rest, rfl⟩ := List.exists_cons_of_ne_nil some_steps
  rw [ofSteps, failed]
  rfl

/-- Steps that fit, one slot each, make a program; neutral steps follow. -/
theorem ofSteps_of_fit (settings : Settings) (some_steps : 1 ≤ steps.length)
    (few : steps.length ≤ g.stepSlots) (fit : ∀ step ∈ steps, step.Fits g) :
    ∃ q, ofSteps g steps settings = .ok q ∧ q.geometry = g ∧
      q.steps = steps ++ List.replicate (g.stepSlots - steps.length) (Step.neutral g) ∧
      q.last = steps.length - 1 ∧ q.settings = settings := by
  have room : 0 + steps.length ≤ (make g settings).geometry.stepSlots := by
    rwa [Nat.zero_add]
  obtain ⟨filled, set, filled_geometry, filled_steps, -, filled_settings⟩ :=
    setStepsFrom_of_fit (p := make g settings) fit room
  have there : steps.length - 1 < filled.geometry.stepSlots := by
    rw [filled_geometry]
    exact Nat.lt_of_lt_of_le (Nat.sub_one_lt_of_lt some_steps) few
  obtain ⟨q, ended, geometry, q_steps, last, q_settings⟩ := setLast_of_within there
  refine ⟨q, ?_, geometry.trans filled_geometry, ?_, last, q_settings.trans filled_settings⟩
  · exact ofSteps_of_filled (List.ne_nil_of_length_pos some_steps) ((bind_of_ok set).trans ended)
  · rw [q_steps, filled_steps, Nat.zero_add]
    change _ ++ List.drop _ (List.replicate g.stepSlots (Step.neutral g)) = _
    rw [List.drop_replicate]
    rfl

theorem ofSteps_of_refused {error : TriggerError} (refused : FirstRefused g steps error) :
    ofSteps g steps settings = .error error := by
  obtain ⟨front, step, back, rfl, few, fit, why⟩ := refused
  have room : 0 + front.length ≤ (make g settings).geometry.stepSlots := by
    rwa [Nat.zero_add]
  obtain ⟨filled, set, geometry, -⟩ := setStepsFrom_of_fit (p := make g settings) fit room
  have at_fault : setStep (0 + front.length) step filled = .error error filled := by
    rcases why with ⟨misfit, rfl⟩ | ⟨fits, full, rfl⟩
    · exact setStep_of_misfit (geometry ▸ misfit) _
    · have beyond : filled.geometry.stepSlots ≤ 0 + front.length := by
        rw [geometry, Nat.zero_add, full]
        exact Nat.le_refl _
      rw [setStep_of_beyond (geometry ▸ fits) beyond, geometry, Nat.zero_add, full]
      rfl
  have stopped : setStepsFrom 0 (front ++ step :: back) (make g settings) =
      .error error filled := by
    rw [setStepsFrom_append, bind_of_ok set]
    exact bind_of_error at_fault
  exact ofSteps_of_unfilled (List.append_ne_nil_of_right_ne_nil _ (List.cons_ne_nil _ _))
    (bind_of_error stopped)

/-- A program is made of steps unless there are none, or one of them is refused. -/
theorem ofSteps_eq_error_iff {error : TriggerError} :
    ofSteps g steps settings = .error error ↔
      steps = [] ∧ error = .noSteps ∨ FirstRefused g steps error := by
  constructor
  · intro failed
    rcases Nat.eq_zero_or_pos steps.length with none | some_steps
    · rw [List.eq_nil_of_length_eq_zero none] at failed ⊢
      cases failed
      exact .inl ⟨rfl, rfl⟩
    · by_cases fine : steps.length ≤ g.stepSlots ∧ ∀ step ∈ steps, step.Fits g
      · obtain ⟨q, made, -⟩ := ofSteps_of_fit settings some_steps fine.1 fine.2
        cases made.symm.trans failed
      · obtain ⟨other, refused⟩ := exists_firstRefused fine
        cases (ofSteps_of_refused refused).symm.trans failed
        exact .inr refused
  · rintro (⟨rfl, rfl⟩ | refused)
    · rfl
    · exact ofSteps_of_refused refused

theorem ofSteps_isOk_iff :
    (∃ q, ofSteps g steps settings = .ok q) ↔
      1 ≤ steps.length ∧ steps.length ≤ g.stepSlots ∧ ∀ step ∈ steps, step.Fits g := by
  constructor
  · rintro ⟨q, made⟩
    constructor
    · rcases Nat.eq_zero_or_pos steps.length with none | some_steps
      · rw [List.eq_nil_of_length_eq_zero none] at made
        cases made
      · exact some_steps
    · apply Decidable.byContradiction
      intro unfit
      obtain ⟨error, refused⟩ := exists_firstRefused unfit
      cases (ofSteps_of_refused refused).symm.trans made
  · rintro ⟨some_steps, few, fit⟩
    obtain ⟨q, made, -⟩ := ofSteps_of_fit settings some_steps few fit
    exact ⟨q, made⟩

/-! ## Edited programs -/

/-- Programs for an engine that were made or built from steps, and then edited. -/
inductive Edited (g : Geometry) : Program → Prop
  | made (settings : Settings) : Edited g (make g settings)
  | ofSteps {steps : List Step} {settings : Settings} {p : Program} :
    Program.ofSteps g steps settings = .ok p → Edited g p
  | edit {p : Program} (e : Edit) : Edited g p → Edited g (p.edit e)

theorem Edited.geometry (edited : Edited g p) : p.geometry = g := by
  induction edited with
  | made settings => rfl
  | ofSteps built =>
    obtain ⟨some_steps, few, fit⟩ := ofSteps_isOk_iff.1 ⟨_, built⟩
    obtain ⟨q, made, geometry, -⟩ := ofSteps_of_fit _ some_steps few fit
    cases made.symm.trans built
    exact geometry
  | edit e _ ih => exact (edit_geometry _ e).trans ih

/-- What an edited program guarantees, and what its calls answer. There is a step
for every slot, all fit, and the last active one is there; a call that fails changes
nothing; a step that does not fit is refused before a slot that does not exist; a
list of steps is taken as a whole or refused for its first step that has no place.
So the active steps are there, each step has as many matcher words as its block
has room for, and the program is compiled in place without any check failing. -/
theorem contract_of_edited (edited : Edited g p) :
    (p.geometry = g ∧ p.steps.length = g.stepSlots ∧ (∀ step ∈ p.steps, step.Fits g) ∧
      p.last < p.steps.length) ∧
    (∀ e error q, attempt e p = .error error q → q = p ∧ p.edit e = p) ∧
    (∀ index step,
      (¬ step.Fits g → setStep index step p = .error .geometryMismatch p) ∧
      (step.Fits g → g.stepSlots ≤ index →
        setStep index step p = .error (.noSuchStep index g.stepSlots) p) ∧
      (step.Fits g → index < g.stepSlots → ∃ q, setStep index step p = .ok () q ∧
        q.geometry = g ∧ q.steps = p.steps.set index step ∧ q.last = p.last ∧
        q.settings = p.settings)) ∧
    (∀ index,
      (g.stepSlots ≤ index → setLast index p = .error (.noSuchStep index g.stepSlots) p) ∧
      (index < g.stepSlots → ∃ q, setLast index p = .ok () q ∧
        q.geometry = g ∧ q.steps = p.steps ∧ q.last = index ∧ q.settings = p.settings)) ∧
    (∀ steps settings,
      ((∃ q, ofSteps g steps settings = .ok q) ↔
        1 ≤ steps.length ∧ steps.length ≤ g.stepSlots ∧ ∀ step ∈ steps, step.Fits g) ∧
      (∀ q, ofSteps g steps settings = .ok q → q.geometry = g ∧
        q.steps = steps ++ List.replicate (g.stepSlots - steps.length) (Step.neutral g) ∧
        q.last = steps.length - 1 ∧ q.settings = settings) ∧
      ∀ error, ofSteps g steps settings = .error error ↔
        steps = [] ∧ error = .noSteps ∨ FirstRefused g steps error) ∧
    (p.active? = some p.active ∧ p.active.length = p.last + 1) ∧
    (∀ step ∈ p.slots, step.matcherPlaces.length = g.wordsPerStep) ∧
    p.compileInPlace? = some p.compile.words := by
  have geometry := edited.geometry
  subst geometry
  refine ⟨⟨rfl, p.steps_length, p.steps_fit, p.steps_length ▸ p.last_lt⟩, ?_, ?_, ?_, ?_,
    ⟨p.active?_eq, p.length_active⟩,
    fun step mem => Step.length_matcherPlaces (p.slots_fit step mem), p.compileInPlace?_eq⟩
  · exact fun e error q failed => ⟨unchanged_of_failed failed, edit_of_failed failed⟩
  · exact fun index step => ⟨fun misfit => setStep_of_misfit misfit index,
      setStep_of_beyond, setStep_of_fits⟩
  · exact fun index => ⟨setLast_of_beyond, setLast_of_within⟩
  · intro steps settings
    refine ⟨ofSteps_isOk_iff, ?_, fun error => ofSteps_eq_error_iff⟩
    intro q built
    obtain ⟨some_steps, few, fit⟩ := ofSteps_isOk_iff.1 ⟨q, built⟩
    obtain ⟨r, made, rest⟩ := ofSteps_of_fit settings some_steps few fit
    cases made.symm.trans built
    exact rest

theorem twoSlots_sound : (⟨2, 2, 2, 16⟩ : Shape).fault? = none := by decide

/-- An engine of two slots. -/
def twoSlots : Geometry := ⟨⟨2, 2, 2, 16⟩, twoSlots_sound⟩

/-- A step for it that waits for three matches. -/
def thirdMatch : Step := { Step.neutral twoSlots with count := 3 }

/-- A program for it, edited by three calls of which the second fails. -/
def edited : Program :=
  (((make twoSlots .standard).edit (.step 1 thirdMatch)).edit (.step 2 thirdMatch)).edit (.last 1)

/-- What it has become; one step more is refused. -/
theorem contract_of_edited_twoSlots :
    Edited twoSlots edited ∧ edited.steps = [Step.neutral twoSlots, thirdMatch] ∧
      edited.last = 1 ∧
      setStep 2 thirdMatch edited = .error (.noSuchStep 2 2) edited ∧
      edited.edit (.step 2 thirdMatch) = edited ∧
      ofSteps twoSlots [thirdMatch, thirdMatch, thirdMatch] {} = .error (.noSuchStep 2 2) ∧
      edited.compileInPlace? = some edited.compile.words := by
  have history : Edited twoSlots edited := .edit _ (.edit _ (.edit _ (.made .standard)))
  have fits : thirdMatch.Fits twoSlots := by decide
  obtain ⟨-, unchanged, steps, -, lists, -, -, compiled⟩ := contract_of_edited history
  have refused : setStep 2 thirdMatch edited = .error (.noSuchStep 2 2) edited :=
    (steps 2 thirdMatch).2.1 fits (by decide)
  have third : FirstRefused twoSlots [thirdMatch, thirdMatch, thirdMatch] (.noSuchStep 2 2) :=
    ⟨[thirdMatch, thirdMatch], thirdMatch, [], rfl, by decide, by decide, .inr ⟨fits, rfl, rfl⟩⟩
  exact ⟨history, by rfl, by rfl, refused, (unchanged (.step 2 thirdMatch) _ _ refused).2,
    ((lists _ {}).2.2 _).2 (.inr third), compiled⟩

end Program

end LogicCapture
