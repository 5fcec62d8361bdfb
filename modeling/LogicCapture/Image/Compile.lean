import LogicCapture.Image.Combiner
import LogicCapture.Image.Matcher
import LogicCapture.Image.Planes
import LogicCapture.Trigger.Program
import LogicCapture.Wire.Frame
import LogicCapture.Wire.Word

/-!
Images: the table words that a trigger program is compiled into. The slots are
laid out from the last one down, first the matchers of all of them, then the
combiners; the count planes and the flags follow. Slots behind the last active
step get the neutral step, so that they can never hold up the sequence.
`Program.isSome_compile?` says that every program has an image.
-/

namespace LogicCapture

/-- A compiled program, region by region. -/
structure Image where
  geometry : Geometry
  matchers : List UInt32
  combiners : List UInt32
  counts : List UInt32
  flags : List UInt32
deriving DecidableEq

namespace Image

/-- All words in the order in which the engine takes them. -/
def words (image : Image) : List UInt32 :=
  image.matchers ++ image.combiners ++ image.counts ++ image.flags

/-- The words as bytes. -/
def bytes (image : Image) : List UInt8 := Wire.ofWords image.words

/-- The frame that loads the image. -/
def frame (image : Image) : List UInt8 :=
  Wire.tablesFrame (UInt16.ofNat image.words.length) image.bytes

end Image

namespace Program

/-- What every slot of the engine holds: the active steps, then neutral ones. -/
def slots (p : Program) : List Step :=
  p.active ++ List.replicate (p.geometry.stepSlots - p.active.length) (Step.neutral p.geometry)

/-- Compiles a program; none if a word would have to be left out. -/
def compile? (p : Program) : Option Image := do
  let downward := p.slots.reverse
  let matchers ← downward.mapM (·.matcherWords? p.geometry.wordsPerStep)
  let combiners ← downward.mapM Step.combinerWord?
  let counts ← Planes.countWords? p.geometry.counterBits (p.active.map (·.target))
  let flags ← Planes.flagWords? (p.active.map (·.contiguous))
  return { geometry := p.geometry, matchers := matchers.flatten, combiners, counts, flags }

theorem slots_fit (p : Program) : ∀ step ∈ p.slots, step.Fits p.geometry := by
  intro step mem
  rcases List.mem_append.1 mem with active | neutral
  · exact p.active_fit step active
  · exact List.eq_of_mem_replicate neutral ▸ Step.neutral_fits p.geometry

/-- Every program compiles: its steps fit, there are at most four patterns and
32 steps, and the counters are as wide as their states. -/
theorem isSome_compile? (p : Program) : p.compile?.isSome := by
  have fit : ∀ step ∈ p.slots.reverse, step.Fits p.geometry := fun step mem =>
    p.slots_fit step (List.mem_reverse.1 mem)
  have few : p.active.length ≤ 32 := by
    rw [p.length_active]
    exact Nat.le_trans p.last_lt p.geometry.stepSlots_le
  obtain ⟨matchers, hm⟩ := Option.isSome_iff_exists.1
    (isSome_mapM (f := (·.matcherWords? p.geometry.wordsPerStep)) fun step mem =>
      Step.isSome_matcherWords? (fit step mem) _)
  obtain ⟨combiners, hc⟩ := Option.isSome_iff_exists.1
    (isSome_mapM (f := Step.combinerWord?) fun step mem => by
      apply Step.isSome_combinerWord?
      have length := (fit step mem).1
      rcases p.geometry.patternSlots_eq with two | four <;> omega)
  obtain ⟨counts, hn⟩ := Option.isSome_iff_exists.1
    (Planes.isSome_countWords? (Nat.le_of_eq p.geometry.counterBits_eq)
      (show (p.active.map (·.target)).length ≤ 32 by simpa using few))
  obtain ⟨flags, hf⟩ := Option.isSome_iff_exists.1
    (Planes.isSome_flagWords? (show (p.active.map (·.contiguous)).length ≤ 32 by simpa using few))
  simp [compile?, hm, hc, hn, hf]

/-- The image of a program. -/
def compile (p : Program) : Image := p.compile?.get p.isSome_compile?

theorem compile?_eq_some (p : Program) : p.compile? = some p.compile := by
  simp [compile]

end Program

end LogicCapture
