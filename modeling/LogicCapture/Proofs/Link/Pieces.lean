import LogicCapture.Link.Basic
import Mathlib.Algebra.GroupWithZero.Nat

/-!
# Pieces of a frame

Beyond what `flatten_pieces` and `length_of_mem_pieces` say of the pieces, there
are no more of them than it takes, and only the last one may be shorter than the
others. So their lengths follow from the length of the whole.
-/

namespace LogicCapture

variable {α : Type} {most : Nat}

/-- The list in parts of `most` elements, none of them empty and as few as
possible. -/
structure Cut (most : Nat) (l : List α) (parts : List (List α)) : Prop where
  whole : parts.flatten = l
  number : parts.length = (l.length + max most 1 - 1) / max most 1
  nonempty : ∀ part ∈ parts, part ≠ []
  fits : ∀ part ∈ parts, part.length ≤ max most 1

/-- There are as many pieces as the size goes into the length, rounded up. -/
theorem length_pieces (most : Nat) (l : List α) :
    (pieces most l).length = (l.length + max most 1 - 1) / max most 1 := by
  fun_induction pieces most l with
  | case1 =>
    have positive : 0 + max most 1 - 1 < max most 1 := by omega
    exact (Nat.div_eq_of_lt positive).symm
  | case2 first rest ih =>
    have first_piece : rest.length + 1 + max most 1 - 1 = rest.length + max most 1 := by omega
    rw [List.length_cons, ih, List.length_drop, List.length_cons, first_piece,
      Nat.add_div_right _ (by omega)]
    rcases Nat.lt_or_ge rest.length (most - 1) with short | long
    · have one : rest.length - (most - 1) + max most 1 - 1 < max most 1 := by omega
      rw [Nat.div_eq_of_lt one, Nat.div_eq_of_lt (by omega)]
    · have behind : rest.length - (most - 1) + max most 1 - 1 = rest.length := by omega
      rw [behind]

theorem cut_pieces (most : Nat) (l : List α) : Cut most l (pieces most l) where
  whole := flatten_pieces most l
  number := length_pieces most l
  nonempty := fun _ mem => List.ne_nil_of_length_pos (length_of_mem_pieces mem).1
  fits := fun _ mem => (length_of_mem_pieces mem).2

/-! ## Lengths of the pieces -/

/-- The lengths of the pieces of `total` elements: full ones, then what is
left. -/
def pieceLengths (most total : Nat) : List Nat :=
  List.replicate (total / most) most ++ if total % most = 0 then [] else [total % most]

theorem pieceLengths_zero (most : Nat) : pieceLengths most 0 = [] := by
  rw [pieceLengths, Nat.zero_div, Nat.zero_mod, if_pos rfl]
  rfl

theorem pieceLengths_of_pos {total : Nat} (some_fit : 0 < most) (left : 0 < total) :
    pieceLengths most total = min most total :: pieceLengths most (total - min most total) := by
  rcases Nat.lt_or_ge total most with short | long
  · have last : total - min most total = 0 := by omega
    rw [last, pieceLengths_zero, pieceLengths, Nat.div_eq_of_lt short, Nat.mod_eq_of_lt short,
      if_neg (Nat.pos_iff_ne_zero.1 left), Nat.min_eq_right (Nat.le_of_lt short)]
    rfl
  · have full : total / most = (total - most) / most + 1 := Nat.div_eq_sub_div some_fit long
    have rest : total % most = (total - most) % most := Nat.mod_eq_sub_mod long
    rw [Nat.min_eq_left long, pieceLengths, pieceLengths, full, rest, List.replicate_succ]
    rfl

theorem sum_pieceLengths (most total : Nat) : (pieceLengths most total).sum = total := by
  have parts := Nat.div_add_mod' total most
  rw [pieceLengths, List.sum_append, List.sum_replicate_nat]
  split
  · next even => rwa [even] at parts
  · exact parts

theorem map_length_pieces (some_fit : 0 < most) (l : List α) :
    (pieces most l).map List.length = pieceLengths most l.length := by
  fun_induction pieces most l with
  | case1 => exact (pieceLengths_zero most).symm
  | case2 first rest ih =>
    have piece : (first :: rest.take (most - 1)).length = min most (rest.length + 1) := by
      rw [List.length_cons, List.length_take]
      omega
    have behind : (rest.drop (most - 1)).length =
        rest.length + 1 - min most (rest.length + 1) := by
      rw [List.length_drop]
      omega
    rw [List.map_cons, ih, piece, behind, List.length_cons,
      pieceLengths_of_pos some_fit (Nat.succ_pos _)]

/-- All pieces but the last are full. -/
theorem length_of_mem_dropLast_pieces (some_fit : 0 < most) {l piece : List α}
    (mem : piece ∈ (pieces most l).dropLast) : piece.length = most := by
  have lengths : (pieces most l).dropLast.map List.length =
      (pieceLengths most l.length).dropLast := by
    rw [← map_length_pieces some_fit, List.map_dropLast]
  have length_mem : piece.length ∈ (pieceLengths most l.length).dropLast :=
    lengths ▸ List.mem_map_of_mem mem
  rw [pieceLengths] at length_mem
  split at length_mem
  · rw [List.append_nil] at length_mem
    exact List.eq_of_mem_replicate ((List.dropLast_subset _ length_mem))
  · rw [List.dropLast_concat] at length_mem
    exact List.eq_of_mem_replicate length_mem

/-- What divides the size and the whole divides the lengths of the pieces. -/
theorem dvd_of_mem_pieceLengths {d total length : Nat} (size : d ∣ most) (whole : d ∣ total)
    (mem : length ∈ pieceLengths most total) : d ∣ length := by
  rcases List.mem_append.1 mem with full | rest
  · exact List.eq_of_mem_replicate full ▸ size
  · split at rest
    · cases rest
    · exact List.mem_singleton.1 rest ▸ (Nat.dvd_mod_iff size).2 whole

theorem le_of_mem_pieceLengths {total length : Nat} (some_fit : 0 < most)
    (mem : length ∈ pieceLengths most total) : length ≤ most := by
  rcases List.mem_append.1 mem with full | rest
  · exact Nat.le_of_eq (List.eq_of_mem_replicate full)
  · split at rest
    · cases rest
    · exact List.mem_singleton.1 rest ▸ Nat.le_of_lt (Nat.mod_lt total some_fit)

theorem dvd_length_of_mem_pieces {d : Nat} (some_fit : 0 < most) {l piece : List α}
    (size : d ∣ most) (whole : d ∣ l.length) (mem : piece ∈ pieces most l) :
    d ∣ piece.length :=
  dvd_of_mem_pieceLengths size whole (map_length_pieces some_fit l ▸ List.mem_map_of_mem mem)

/-- The pieces begin with what the size takes. -/
theorem pieces_of_ne_nil (some_fit : 0 < most) {l : List α} (left : l ≠ []) :
    pieces most l = l.take most :: pieces most (l.drop most) := by
  obtain ⟨first, rest, rfl⟩ := List.exists_cons_of_ne_nil left
  obtain ⟨fewer, rfl⟩ := Nat.exists_eq_succ_of_ne_zero (Nat.pos_iff_ne_zero.1 some_fit)
  rw [pieces]
  rfl

end LogicCapture
