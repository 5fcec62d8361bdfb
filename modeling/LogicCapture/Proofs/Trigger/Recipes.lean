import LogicCapture.Proofs.Trigger.Spelling
import LogicCapture.Trigger.Recipe
import Mathlib.Data.List.Induction

/-!
# Recipes and the steps that they describe

A recipe is good if each of its instructions can be carried out, those that are
overridden later included; else its first bad instruction is the error. The step of a
good recipe is told by the last instruction for each of its parts (`Step.Described`), so
instructions for different parts may change places. Patterns may as well be put aside and
read all at the end, as a `Builder` does. `Step.build_follows_recipe` says all this of
every recipe.
-/

namespace LogicCapture

/-! ## Instructions -/

namespace Instruction

/-- A part of a step. -/
inductive Part where
  | slot (index : Nat)
  | operation
  | contiguity
  | count
deriving DecidableEq

/-- The part of the step that an instruction sets. -/
def part : Instruction → Part
  | .condition index _ _ => .slot index
  | .operation _ => .operation
  | .contiguous => .contiguity
  | .times _ => .count

/-- What is put into a slot. -/
def condition? (slot : Nat) : Instruction → Option (String × Polarity)
  | .condition index text polarity => if index = slot then some (text, polarity) else none
  | _ => none

def operation? : Instruction → Option Operation
  | .operation op => some op
  | _ => none

def count? : Instruction → Option UInt16
  | .times number => some number
  | _ => none

/-- The instruction can be carried out: its slot is there and its text is a pattern. -/
def Sound (g : Geometry) : Instruction → Prop
  | .condition index text _ =>
    index < g.patternSlots ∧ ∃ p, Pattern.parse text g.channels = .ok p
  | _ => True

/-- The error of an instruction that cannot be carried out: a slot that is not there
comes before a text that is no pattern. -/
def Refused (g : Geometry) (error : TriggerError) : Instruction → Prop
  | .condition index text _ =>
    g.patternSlots ≤ index ∧ error = .noSuchPattern index g.patternSlots ∨
      index < g.patternSlots ∧ Pattern.parse text g.channels = .error error
  | _ => False

/-- What the last of the instructions for a part says, if there is one. -/
def latest? {α : Type} (said? : Instruction → Option α) (recipe : List Instruction) : Option α :=
  (recipe.filterMap said?).getLast?

theorem latest?_concat {α : Type} (said? : Instruction → Option α) (recipe : List Instruction)
    (call : Instruction) :
    latest? said? (recipe ++ [call]) = (said? call).or (latest? said? recipe) := by
  rw [latest?, latest?, List.filterMap_append]
  cases said : said? call with
  | none => rw [List.filterMap_cons_none said, List.filterMap_nil, List.append_nil, Option.none_or]
  | some value =>
    rw [List.filterMap_cons_some said, List.filterMap_nil, List.getLast?_concat, Option.some_or]

theorem sound_or_refused (g : Geometry) (call : Instruction) :
    call.Sound g ∨ ∃ error, call.Refused g error := by
  cases call with
  | condition index text polarity =>
    rcases Nat.lt_or_ge index g.patternSlots with there | beyond
    · cases read : Pattern.parse text g.channels with
      | ok p => exact .inl ⟨there, p, read⟩
      | error cause => exact .inr ⟨cause, .inr ⟨there, read⟩⟩
    · exact .inr ⟨_, .inl ⟨beyond, rfl⟩⟩
  | operation operation => exact .inl trivial
  | contiguous => exact .inl trivial
  | times count => exact .inl trivial

/-- What an instruction that can be carried out puts into a slot. -/
theorem Sound.of_condition? {g : Geometry} {call : Instruction} {i : Nat} {text : String}
    {polarity : Polarity} (sound : call.Sound g)
    (said : call.condition? i = some (text, polarity)) :
    i < g.patternSlots ∧ Pattern.Spells text g.channels := by
  cases call with
  | condition index text' polarity' =>
    obtain ⟨there, p, read⟩ := sound
    rw [condition?] at said
    split at said
    · next here =>
      cases said
      exact ⟨here ▸ there, (Pattern.parse_eq_ok_iff.1 read).1⟩
    · cases said
  | operation | contiguous | times => cases said

end Instruction

namespace Step

open Instruction

variable {g : Geometry} {s : Step} {call : Instruction} {recipe : List Instruction}

/-! ## Carrying out one instruction -/

/-- The step after an instruction that can be carried out. -/
def carried (g : Geometry) (s : Step) : Instruction → Step
  | .condition index text polarity =>
    { s with conditions := s.conditions.set index ⟨Pattern.spelled text g.channels, polarity⟩ }
  | .operation operation => { s with operation }
  | .contiguous => { s with contiguous := true }
  | .times count => { s with count }

theorem follow_of_sound (slots : s.conditions.length = g.patternSlots) (sound : call.Sound g) :
    follow g s call = .ok (s.carried g call) := by
  cases call with
  | condition index text polarity =>
    obtain ⟨there, p, read⟩ := sound
    obtain ⟨-, rfl⟩ := Pattern.parse_eq_ok_iff.1 read
    rw [follow, slots, if_neg (Nat.not_le_of_lt there), read]
    rfl
  | operation operation => rfl
  | contiguous => rfl
  | times count => rfl

theorem follow_of_refused {error : TriggerError} (slots : s.conditions.length = g.patternSlots)
    (refused : call.Refused g error) : follow g s call = .error error := by
  cases call with
  | condition index text polarity =>
    rcases refused with ⟨beyond, rfl⟩ | ⟨there, failed⟩
    · rw [follow, slots, if_pos beyond]
      rfl
    · rw [follow, slots, if_neg (Nat.not_le_of_lt there), failed]
      rfl
  | operation operation => exact refused.elim
  | contiguous => exact refused.elim
  | times count => exact refused.elim

theorem operation_carried (s : Step) (call : Instruction) :
    (s.carried g call).operation = call.operation?.getD s.operation := by
  cases call with
  | condition | operation | contiguous | times => rfl

theorem count_carried (s : Step) (call : Instruction) :
    (s.carried g call).count = call.count?.getD s.count := by
  cases call with
  | condition | operation | contiguous | times => rfl

theorem contiguous_carried (s : Step) (call : Instruction) :
    (s.carried g call).contiguous = true ↔ s.contiguous = true ∨ call = .contiguous := by
  cases call with
  | contiguous => exact iff_of_true rfl (.inr rfl)
  | condition | operation | times => exact (or_iff_left nofun).symm

theorem length_conditions_carried (s : Step) (call : Instruction) :
    (s.carried g call).conditions.length = s.conditions.length := by
  cases call with
  | condition index text polarity => exact List.length_set
  | operation operation => rfl
  | contiguous => rfl
  | times count => rfl

/-- A slot that the instruction is not about. -/
theorem getElem?_carried_of_none {i : Nat} (none : call.condition? i = none) :
    (s.carried g call).conditions[i]? = s.conditions[i]? := by
  cases call with
  | condition index text polarity =>
    rw [condition?] at none
    split at none
    · cases none
    · next other => exact List.getElem?_set_ne other
  | operation | contiguous | times => rfl

/-- The slot that it is about. -/
theorem getElem?_carried_of_some {i : Nat} {text : String} {polarity : Polarity}
    (lt : i < s.conditions.length) (said : call.condition? i = some (text, polarity)) :
    (s.carried g call).conditions[i]? =
      some ⟨Pattern.spelled text g.channels, polarity⟩ := by
  cases call with
  | condition index text' polarity' =>
    rw [condition?] at said
    split at said
    · next here =>
      subst here
      cases said
      exact List.getElem?_set_self lt
    · cases said
  | operation | contiguous | times => cases said

/-- A step that fits still does after an instruction that can be carried out. -/
theorem fits_carried (fits : s.Fits g) (sound : call.Sound g) : (s.carried g call).Fits g := by
  refine ⟨(length_conditions_carried s call).trans fits.1, fun c mem => ?_⟩
  cases call with
  | condition index text polarity =>
    obtain ⟨-, spells⟩ := sound.of_condition? (if_pos rfl)
    rcases List.mem_or_eq_of_mem_set mem with old | rfl
    · exact fits.2 c old
    · exact Pattern.width_spelled spells.2
  | operation | contiguous | times => exact fits.2 c mem

/-- Instructions for different parts do not get in each other's way. -/
theorem carried_comm {a b : Instruction} (apart : a.part ≠ b.part) :
    (s.carried g a).carried g b = (s.carried g b).carried g a := by
  cases a with
  | condition index text polarity =>
    cases b with
    | condition index' text' polarity' =>
      have other : index ≠ index' := fun eq => apart (congrArg Part.slot eq)
      simp only [carried]
      rw [List.set_comm _ _ other]
    | operation | contiguous | times => rfl
  | operation operation =>
    cases b with
    | operation operation' => exact absurd rfl apart
    | condition | contiguous | times => rfl
  | contiguous =>
    cases b with
    | contiguous => exact absurd rfl apart
    | condition | operation | times => rfl
  | times count =>
    cases b with
    | times count' => exact absurd rfl apart
    | condition | operation | contiguous => rfl

/-! ## Whole recipes -/

/-- The step that a good recipe comes to. -/
def result (g : Geometry) (recipe : List Instruction) : Step := recipe.foldl (carried g) (blank g)

theorem length_conditions_blank (g : Geometry) : (blank g).conditions.length = g.patternSlots :=
  List.length_replicate

/-- The first instruction that cannot be carried out has this error. -/
def FirstRefused (g : Geometry) (recipe : List Instruction) (error : TriggerError) : Prop :=
  ∃ front call back, recipe = front ++ call :: back ∧ (∀ c ∈ front, c.Sound g) ∧
    call.Refused g error

theorem foldlM_follow_of_sound (slots : s.conditions.length = g.patternSlots)
    (sound : ∀ call ∈ recipe, call.Sound g) :
    recipe.foldlM (follow g) s = .ok (recipe.foldl (carried g) s) := by
  induction recipe generalizing s with
  | nil => rfl
  | cons call rest ih =>
    obtain ⟨first, others⟩ := List.forall_mem_cons.1 sound
    rw [List.foldlM_cons, follow_of_sound slots first]
    exact ih ((length_conditions_carried s call).trans slots) others

theorem length_conditions_foldl_carried (recipe : List Instruction) (s : Step) :
    (recipe.foldl (carried g) s).conditions.length = s.conditions.length := by
  induction recipe generalizing s with
  | nil => rfl
  | cons call rest ih => exact (ih _).trans (length_conditions_carried s call)

theorem build_of_sound (sound : ∀ call ∈ recipe, call.Sound g) :
    build g recipe = .ok (result g recipe) :=
  foldlM_follow_of_sound (length_conditions_blank g) sound

theorem build_of_firstRefused {error : TriggerError} (refused : FirstRefused g recipe error) :
    build g recipe = .error error := by
  obtain ⟨front, call, back, rfl, sound, why⟩ := refused
  have slots : (result g front).conditions.length = g.patternSlots :=
    (length_conditions_foldl_carried front _).trans (length_conditions_blank g)
  rw [build, List.foldlM_append, foldlM_follow_of_sound (length_conditions_blank g) sound]
  change List.foldlM (follow g) (result g front) (call :: back) = _
  rw [List.foldlM_cons, follow_of_refused slots why]
  rfl

theorem exists_firstRefused (bad : ¬ ∀ call ∈ recipe, call.Sound g) :
    ∃ error, FirstRefused g recipe error := by
  obtain ⟨front, call, back, rfl, fine, unsound⟩ := exists_first_failing bad
  rcases call.sound_or_refused g with sound | ⟨error, refused⟩
  · exact absurd sound unsound
  · exact ⟨error, front, call, back, rfl, fine, refused⟩

theorem build_eq_ok_iff :
    build g recipe = .ok s ↔ (∀ call ∈ recipe, call.Sound g) ∧ s = result g recipe := by
  refine ⟨fun built => ?_, fun ⟨sound, eq⟩ => eq ▸ build_of_sound sound⟩
  by_cases sound : ∀ call ∈ recipe, call.Sound g
  · rw [build_of_sound sound] at built
    exact ⟨sound, (Except.ok.inj built).symm⟩
  · obtain ⟨error, refused⟩ := exists_firstRefused sound
    cases (build_of_firstRefused refused).symm.trans built

theorem build_eq_error_iff {error : TriggerError} :
    build g recipe = .error error ↔ FirstRefused g recipe error := by
  refine ⟨fun failed => ?_, build_of_firstRefused⟩
  by_cases sound : ∀ call ∈ recipe, call.Sound g
  · cases (build_of_sound sound).symm.trans failed
  · obtain ⟨other, refused⟩ := exists_firstRefused sound
    cases (build_of_firstRefused refused).symm.trans failed
    exact refused

/-! ## What a recipe describes -/

/-- The step is the one that the recipe describes: each part is as the last instruction
for it says, or as it was in the blank step if there is none. -/
structure Described (g : Geometry) (recipe : List Instruction) (s : Step) : Prop where
  fits : s.Fits g
  written : ∀ i text polarity, latest? (condition? i) recipe = some (text, polarity) →
    ∃ p, Pattern.parse text g.channels = .ok p ∧ s.conditions[i]? = some ⟨p, polarity⟩
  untouched : ∀ i < g.patternSlots, latest? (condition? i) recipe = none →
    s.conditions[i]? = some ⟨.free g.channels, .disabled⟩
  operation : s.operation = (latest? operation? recipe).getD .conj
  contiguous : s.contiguous = true ↔ .contiguous ∈ recipe
  count : s.count = (latest? count? recipe).getD 1

theorem described_blank (g : Geometry) : Described g [] (blank g) where
  fits := by
    refine ⟨length_conditions_blank g, fun c mem => ?_⟩
    rw [List.eq_of_mem_replicate mem]
    exact Pattern.width_free g.channels
  written := nofun
  untouched i lt _ := by rw [blank, List.getElem?_replicate, if_pos lt]
  operation := rfl
  contiguous := iff_of_false nofun List.not_mem_nil
  count := rfl

/-- The step is still the one described after an instruction that is carried out. -/
theorem Described.carried (described : Described g recipe s) (sound : call.Sound g) :
    Described g (recipe ++ [call]) (s.carried g call) where
  fits := fits_carried described.fits sound
  written i text polarity last := by
    rw [latest?_concat] at last
    cases said : call.condition? i with
    | none =>
      rw [said, Option.none_or] at last
      obtain ⟨p, read, held⟩ := described.written i text polarity last
      exact ⟨p, read, (getElem?_carried_of_none said).trans held⟩
    | some value =>
      rw [said, Option.some_or] at last
      cases last
      obtain ⟨there, spells⟩ := sound.of_condition? said
      rw [← described.fits.1] at there
      exact ⟨_, Pattern.parse_of_spells spells, getElem?_carried_of_some there said⟩
  untouched i lt last := by
    rw [latest?_concat] at last
    cases said : call.condition? i with
    | none =>
      rw [said, Option.none_or] at last
      exact (getElem?_carried_of_none said).trans (described.untouched i lt last)
    | some value =>
      rw [said, Option.some_or] at last
      cases last
  operation := by
    rw [operation_carried, latest?_concat, Option.getD_or, described.operation]
  contiguous := by
    rw [contiguous_carried, described.contiguous, List.mem_append, List.mem_singleton]
    exact or_congr_right eq_comm
  count := by
    rw [count_carried, latest?_concat, Option.getD_or, described.count]

theorem described_result (sound : ∀ call ∈ recipe, call.Sound g) :
    Described g recipe (result g recipe) := by
  induction recipe using List.reverseRecOn with
  | nil => exact described_blank g
  | append_singleton front call ih =>
    obtain ⟨others, last⟩ := List.forall_mem_append.1 sound
    rw [result, List.foldl_append]
    exact (ih others).carried (last call List.mem_cons_self)

/-- A recipe describes one step only. -/
theorem Described.unique {t : Step} (described : Described g recipe s)
    (other : Described g recipe t) : s = t := by
  have conditions : s.conditions = t.conditions := by
    apply List.ext_getElem?
    intro i
    rcases Nat.lt_or_ge i g.patternSlots with lt | ge
    · cases last : latest? (condition? i) recipe with
      | none => exact (described.untouched i lt last).trans (other.untouched i lt last).symm
      | some value =>
        obtain ⟨p, read, held⟩ := described.written i _ _ last
        obtain ⟨q, read', held'⟩ := other.written i _ _ last
        cases read.symm.trans read'
        exact held.trans held'.symm
    · rw [List.getElem?_eq_none (described.fits.1 ▸ ge), List.getElem?_eq_none (other.fits.1 ▸ ge)]
  have contiguous : s.contiguous = t.contiguous :=
    Bool.eq_iff_iff.2 (described.contiguous.trans other.contiguous.symm)
  have operation := described.operation.trans other.operation.symm
  have count := described.count.trans other.count.symm
  cases s
  cases t
  cases conditions
  cases contiguous
  cases operation
  cases count
  rfl

/-- Neighbouring instructions for different parts may change places. -/
theorem build_swap {front back : List Instruction} {a b : Instruction} (apart : a.part ≠ b.part)
    (built : build g (front ++ a :: b :: back) = .ok s) :
    build g (front ++ b :: a :: back) = .ok s := by
  obtain ⟨sound, rfl⟩ := build_eq_ok_iff.1 built
  refine build_eq_ok_iff.2 ⟨fun call mem => sound call ?_, ?_⟩
  · have swapped : (front ++ b :: a :: back).Perm (front ++ a :: b :: back) :=
      (List.Perm.swap a b back).append_left front
    exact swapped.mem_iff.1 mem
  · rw [result, result, List.foldl_append, List.foldl_append, List.foldl_cons, List.foldl_cons,
      List.foldl_cons, List.foldl_cons, carried_comm apart]

end Step

/-! ## Patterns put aside -/

/-- A step in the making: its patterns are kept as texts until all is said. -/
structure Builder where
  geometry : Geometry
  patterns : List (Nat × String × Polarity) := []
  operation : Operation := .conj
  contiguous : Bool := false
  count : UInt16 := 1

namespace Builder

/-- Takes an instruction; nothing is read or checked yet. -/
def take (b : Builder) : Instruction → Builder
  | .condition index text polarity =>
    { b with patterns := b.patterns ++ [(index, text, polarity)] }
  | .operation operation => { b with operation }
  | .contiguous => { b with contiguous := true }
  | .times count => { b with count }

/-- Reads one of the texts into its slot, if that is there. -/
def fill (g : Geometry) (conditions : List Condition) (pattern : Nat × String × Polarity) :
    Except TriggerError (List Condition) := do
  let (index, text, polarity) := pattern
  if conditions.length ≤ index then
    throw (.noSuchPattern index g.patternSlots)
  let read ← Pattern.parse text g.channels
  return conditions.set index ⟨read, polarity⟩

/-- Reads all texts in the order in which they came. -/
def conditions (b : Builder) : Except TriggerError (List Condition) :=
  b.patterns.foldlM (fill b.geometry) (Step.blank b.geometry).conditions

def build (b : Builder) : Except TriggerError Step :=
  b.conditions.map fun conditions =>
    { conditions, operation := b.operation, contiguous := b.contiguous, count := b.count }

variable {g : Geometry} {filled : List Condition}

theorem length_of_fill {before : List Condition} {pattern : Nat × String × Polarity}
    (made : fill g before pattern = .ok filled) : filled.length = before.length := by
  obtain ⟨index, text, polarity⟩ := pattern
  dsimp only [fill, bind, Except.bind] at made
  split at made
  · cases made
  · cases read : Pattern.parse text g.channels with
    | error cause =>
      rw [read] at made
      cases made
    | ok p =>
      rw [read] at made
      cases made
      exact List.length_set

theorem length_of_foldlM_fill {before : List Condition}
    {patterns : List (Nat × String × Polarity)}
    (made : patterns.foldlM (fill g) before = .ok filled) : filled.length = before.length := by
  induction patterns generalizing before with
  | nil =>
    cases made
    rfl
  | cons pattern rest ih =>
    rw [List.foldlM_cons] at made
    cases first : fill g before pattern with
    | error cause =>
      rw [first] at made
      cases made
    | ok next =>
      rw [first] at made
      exact (ih made).trans (length_of_fill first)

/-- To take one instruction more is to follow it at the end. -/
theorem build_take (b : Builder) (call : Instruction) :
    (b.take call).build = b.build >>= fun s => Step.follow b.geometry s call := by
  cases call with
  | condition index text polarity =>
    change Except.map _ ((b.patterns ++ [(index, text, polarity)]).foldlM (fill b.geometry) _) =
      Except.map _ b.conditions >>= _
    rw [List.foldlM_append]
    change Except.map _ (b.conditions >>= _) = _
    cases made : b.conditions with
    | error cause => rfl
    | ok filled =>
      have slots : filled.length = b.geometry.patternSlots :=
        (length_of_foldlM_fill made).trans (Step.length_conditions_blank b.geometry)
      change Except.map _ (fill b.geometry filled (index, text, polarity) >>= pure) =
        Step.follow b.geometry _ (.condition index text polarity)
      rw [bind_pure, fill, Step.follow, slots]
      split
      · rfl
      · cases Pattern.parse text b.geometry.channels with
        | error cause => rfl
        | ok p => rfl
  | operation | contiguous | times =>
    change Except.map _ b.conditions = Except.map _ b.conditions >>= _
    cases b.conditions with
    | error cause => rfl
    | ok filled => rfl

theorem geometry_take (b : Builder) (call : Instruction) : (b.take call).geometry = b.geometry := by
  cases call with
  | condition | operation | contiguous | times => rfl

theorem build_foldl_take (b : Builder) (recipe : List Instruction) :
    (recipe.foldl take b).build = b.build >>= fun s => recipe.foldlM (Step.follow b.geometry) s := by
  induction recipe generalizing b with
  | nil => exact (bind_pure b.build).symm
  | cons call rest ih =>
    rw [List.foldl_cons, ih, build_take, bind_assoc, geometry_take]
    rfl

/-- To put patterns aside makes no difference to the step or to the error. -/
theorem build_eq (g : Geometry) (recipe : List Instruction) :
    (recipe.foldl take { geometry := g }).build = Step.build g recipe :=
  build_foldl_take _ recipe

end Builder

/-- What becomes of a recipe. Whether its patterns are put aside or read at once makes no
difference. There is a step exactly if every instruction can be carried out, overridden
ones too, and it is the one that the recipe describes: it fits the engine, and each part
is as the last instruction for it says. Otherwise the first instruction that cannot be
carried out is the error. Neighbouring instructions for different parts of a step may
change places. -/
theorem Step.build_follows_recipe (g : Geometry) (recipe : List Instruction) :
    (recipe.foldl Builder.take { geometry := g }).build = build g recipe ∧
    ((∃ s, build g recipe = .ok s) ↔ ∀ call ∈ recipe, call.Sound g) ∧
    (∀ error, build g recipe = .error error ↔ FirstRefused g recipe error) ∧
    (∀ s, build g recipe = .ok s ↔
      (∀ call ∈ recipe, call.Sound g) ∧ Described g recipe s) ∧
    ∀ front a b back s, recipe = front ++ a :: b :: back → a.part ≠ b.part →
      build g recipe = .ok s → build g (front ++ b :: a :: back) = .ok s := by
  refine ⟨Builder.build_eq g recipe, ⟨?_, ?_⟩, fun error => build_eq_error_iff,
    fun s => ⟨?_, ?_⟩, ?_⟩
  · rintro ⟨s, built⟩
    exact (build_eq_ok_iff.1 built).1
  · exact fun sound => ⟨result g recipe, build_of_sound sound⟩
  · intro built
    obtain ⟨sound, rfl⟩ := build_eq_ok_iff.1 built
    exact ⟨sound, described_result sound⟩
  · rintro ⟨sound, described⟩
    exact build_eq_ok_iff.2 ⟨sound, described.unique (described_result sound)⟩
  · rintro front a b back s rfl apart built
    exact build_swap apart built

/-- A bad text is an error though it is overridden; of two good ones the second counts. -/
theorem Step.build_follows_recipe_overridden :
    build .standard [.requires 0 "Q", .requires 0 "H"] = .error (.invalidSymbol 'Q') ∧
      ∃ s, build .standard [.requires 1 "r1", .any, .excludes 1 "H", .times 3] = .ok s ∧
        s.conditions[1]? = some ⟨Pattern.spelled "H" 16, .inverted⟩ ∧
        s.conditions[0]? = some ⟨.free 16, .disabled⟩ ∧ s.operation = .disj ∧ s.count = 3 := by
  obtain ⟨-, -, errors, -⟩ :=
    build_follows_recipe .standard [.requires 0 "Q", .requires 0 "H"]
  obtain ⟨-, succeeds, -, describes, -⟩ :=
    build_follows_recipe .standard [.requires 1 "r1", .any, .excludes 1 "H", .times 3]
  have bad : (Instruction.requires 0 "Q").Refused .standard (.invalidSymbol 'Q') :=
    .inr ⟨by decide, by rfl⟩
  refine ⟨(errors _).2 ⟨[], _, _, rfl, nofun, bad⟩, ?_⟩
  have first : (Instruction.requires 1 "r1").Sound .standard :=
    ⟨by decide, _, Pattern.parse_of_spells ⟨by decide, by decide⟩⟩
  have second : (Instruction.excludes 1 "H").Sound .standard :=
    ⟨by decide, _, Pattern.parse_of_spells ⟨by decide, by decide⟩⟩
  have good : ∀ call ∈ [Instruction.requires 1 "r1", .any, .excludes 1 "H", .times 3],
      call.Sound .standard :=
    List.forall_mem_cons.2 ⟨first, List.forall_mem_cons.2 ⟨trivial,
      List.forall_mem_cons.2 ⟨second, List.forall_mem_singleton.2 trivial⟩⟩⟩
  obtain ⟨s, built⟩ := succeeds.2 good
  obtain ⟨-, described⟩ := (describes s).1 built
  obtain ⟨p, read, held⟩ := described.written 1 "H" .inverted (by rfl)
  obtain ⟨-, rfl⟩ := Pattern.parse_eq_ok_iff.1 read
  exact ⟨s, built, held, described.untouched 0 (by decide) (by rfl), described.operation,
    described.count⟩

end LogicCapture
