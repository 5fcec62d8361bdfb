import LogicCapture.Image.Bits
import LogicCapture.MatchCounter
import LogicCapture.Trigger.Step

/-!
Bit planes over the steps of a sequence: in each of these words, bit `s` belongs
to step `s`. The count words hold one bit of every step's counter state, the
most significant one first; the flag words say which step is the last and which
steps are contiguous.
-/

namespace LogicCapture

/-- Counter state at which the step has matched often enough. -/
def Step.target (s : Step) : UInt16 := MatchCounter.encode s.count

namespace Planes

/-- The word that has bit `s` set for every step `s` that `set?` says so for.
Steps are numbered from `index`. -/
def plane? {α : Type} (set? : α → Option Bool) (index : Nat) (steps : List α) :
    Option UInt32 :=
  (steps.zipIdx index).foldlM (fun word (step, place) => do
    if ← set? step then
      return word ||| (← oneHot? place)
    return word) 0

/-- Count words of `bits` counter bits. There is none for a counter wider than
its states, nor for a set bit of a step that a word has no bit for. -/
def countWords? (bits : Nat) (targets : List UInt16) : Option (List UInt32) :=
  (List.range bits).reverse.mapM fun bit => plane? (counterBit? · bit) 0 targets

/-- Flag words: the last step alone, then the contiguous steps. -/
def flagWords? (contiguous : List Bool) : Option (List UInt32) := do
  let last ← oneHot? (contiguous.length - 1)
  let mask ← plane? some 0 contiguous
  return [last, mask]

/-- Flag words at the front of a slice that has room for both. -/
def overlayFlags? (slice : List UInt32) (contiguous : List Bool) : Option (List UInt32) := do
  let words ← flagWords? contiguous
  if slice.length < words.length then none else some (overlay words slice)

/-! ## Up to 32 steps have all their planes -/

theorem isSome_plane? {α : Type} {set? : α → Option Bool} {steps : List α}
    (known : ∀ step ∈ steps, (set? step).isSome) (few : steps.length ≤ 32) :
    (plane? set? 0 steps).isSome := by
  apply isSome_foldlM
  intro ⟨step, place⟩ mem word
  obtain ⟨-, placeLt, eq⟩ := List.mem_zipIdx mem
  obtain ⟨set, hset⟩ := Option.isSome_iff_exists.1
    (known step (by rw [eq]; exact List.getElem_mem _))
  obtain ⟨hot, hhot⟩ := Option.isSome_iff_exists.1 (isSome_oneHot?.2 (show place < 32 by omega))
  cases set <;> simp [hset, hhot]

theorem isSome_countWords? {bits : Nat} {targets : List UInt16} (narrow : bits ≤ 16)
    (few : targets.length ≤ 32) : (countWords? bits targets).isSome := by
  apply isSome_mapM
  intro bit mem
  have bitLt : bit < bits := by simpa using mem
  refine isSome_plane? (fun state _ => ?_) few
  simp [counterBit?, show bit < 16 by omega]

theorem isSome_flagWords? {contiguous : List Bool} (few : contiguous.length ≤ 32) :
    (flagWords? contiguous).isSome := by
  obtain ⟨last, hlast⟩ := Option.isSome_iff_exists.1
    (isSome_oneHot?.2 (show contiguous.length - 1 < 32 by omega))
  have known : ∀ set ∈ contiguous, (some set).isSome := fun _ _ => rfl
  obtain ⟨mask, hmask⟩ := Option.isSome_iff_exists.1 (isSome_plane? known few)
  simp [flagWords?, hlast, hmask]

end Planes

end LogicCapture
