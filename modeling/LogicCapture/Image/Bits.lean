/-!
Table words bit by bit. Checked access to a single bit is refused outside the
word, as the engine has no place for it. Words that are made for a slice take as
much of it as there are.
-/

namespace LogicCapture

/-! ## Single bits -/

/-- The word whose only set bit is number `i`. -/
def oneHot? (i : Nat) : Option UInt32 := if i < 32 then some (1 <<< UInt32.ofNat i) else none

theorem isSome_oneHot? {i : Nat} : (oneHot? i).isSome ↔ i < 32 := by
  unfold oneHot?
  split <;> simp_all

theorem oneHot?_of_lt {i : Nat} (lt : i < 32) : oneHot? i = some (1 <<< UInt32.ofNat i) :=
  if_pos lt

theorem oneHot?_of_le {i : Nat} (le : 32 ≤ i) : oneHot? i = none :=
  if_neg (Nat.not_lt_of_le le)

theorem toNat_oneHot {i : Nat} (lt : i < 32) :
    ((1 : UInt32) <<< UInt32.ofNat i).toNat = 1 <<< i := by
  have small : i < UInt32.size := Nat.lt_trans lt (by decide)
  have fits : 1 <<< i < UInt32.size := by
    rw [Nat.one_shiftLeft]
    exact Nat.pow_lt_pow_right (by decide) lt
  rw [UInt32.toNat_shiftLeft, UInt32.toNat_ofNat_of_lt' small, Nat.mod_eq_of_lt lt,
    UInt32.toNat_one]
  exact Nat.mod_eq_of_lt fits

/-- A number has something in common with a shifted one when it has that bit. -/
theorem and_shiftLeft_ne_zero (n i : Nat) : n &&& 1 <<< i ≠ 0 ↔ n.testBit i = true := by
  rw [Nat.one_shiftLeft]
  constructor
  · intro common
    obtain ⟨j, set⟩ := Nat.exists_testBit_of_ne_zero common
    rw [Nat.testBit_and, Nat.testBit_two_pow, Bool.and_eq_true, decide_eq_true_eq] at set
    exact set.2 ▸ set.1
  · intro set nothing_common
    have bit := congrArg (Nat.testBit · i) nothing_common
    rw [Nat.testBit_and, set, Nat.testBit_two_pow_self, Nat.zero_testBit] at bit
    cases bit

theorem and_oneHot_ne_zero (word : UInt32) {i : Nat} (lt : i < 32) :
    (word &&& 1 <<< UInt32.ofNat i != 0) = word.toNat.testBit i := by
  rw [Bool.eq_iff_iff, bne_iff_ne, Ne, ← UInt32.toNat_inj, UInt32.toNat_and, toNat_oneHot lt]
  exact and_shiftLeft_ne_zero word.toNat i

/-- Bit `i` of a counter state. -/
def counterBit? (state : UInt16) (i : Nat) : Option Bool :=
  if i < 16 then some (state.toNat.testBit i) else none

/-! ## Words laid over a slice -/

/-- More words than this cannot be numbered byte by byte, so no slice has
them. -/
def mostWords : Nat := (1 <<< 61) - 1

/-- A slice of `room` words that are all `fill`, unless it is too long to
exist. -/
def slice? (room : Nat) (fill : UInt32) : Option (List UInt32) :=
  if room ≤ mostWords then some (List.replicate room fill) else none

/-- Replaces the words at the front of `slice`; the rest keeps its content. -/
def overlay (words slice : List UInt32) : List UInt32 :=
  words ++ slice.drop words.length

/-- Collecting results that may be missing succeeds when none is. -/
theorem isSome_mapM {α β : Type} {f : α → Option β} {l : List α}
    (present : ∀ a ∈ l, (f a).isSome) : (l.mapM f).isSome := by
  induction l with
  | nil => simp
  | cons a rest ih =>
    obtain ⟨b, hb⟩ := Option.isSome_iff_exists.1 (present a (by simp))
    obtain ⟨bs, hbs⟩ := Option.isSome_iff_exists.1
      (ih fun x mem => present x (List.mem_cons_of_mem a mem))
    simp [List.mapM_cons, hb, hbs]

/-- Folding succeeds when every step does, whatever has been collected. -/
theorem isSome_foldlM {α β : Type} {f : β → α → Option β} {l : List α}
    (present : ∀ a ∈ l, ∀ b, (f b a).isSome) (b : β) : (l.foldlM f b).isSome := by
  induction l generalizing b with
  | nil => simp
  | cons a rest ih =>
    obtain ⟨c, hc⟩ := Option.isSome_iff_exists.1 (present a (by simp) b)
    simpa [List.foldlM_cons, hc] using
      ih (fun x mem => present x (List.mem_cons_of_mem a mem)) c

end LogicCapture
