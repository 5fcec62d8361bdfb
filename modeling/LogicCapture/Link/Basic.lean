import LogicCapture.Link.Error

/-!
The byte link to the analyser. A link is a state that every transfer changes;
a transfer gives all its bytes or fails. Nothing is assumed of a link beyond
that: it may answer with the wrong number of bytes, and go on after a failure.
`pieces` cuts what has to be sent to the size that a link takes.
-/

namespace LogicCapture

/-- A transfer that came to an end: what it gave, the link after it, and the
sizes of the parts in which the bytes were taken, where the link tells. -/
structure Transfer (σ α : Type) where
  result : Except LinkError α
  link : σ
  accepted : List Nat := []

class Link (σ : Type) where
  /-- The most bytes that one transfer moves. -/
  unit : σ → Nat
  send : List UInt8 → σ → Transfer σ Unit
  /-- Asks for a number of bytes. -/
  receive : Nat → σ → Transfer σ (List UInt8)

/-- Transfer unit of links that state none: one bulk packet. -/
def defaultUnit : Nat := 512

/-! ## Pieces of a transfer -/

/-- Cuts a list into pieces of `most` elements, the last one perhaps shorter.
There is no smaller piece than a single element. -/
def pieces {α : Type} (most : Nat) : List α → List (List α)
  | [] => []
  | first :: rest => (first :: rest.take (most - 1)) :: pieces most (rest.drop (most - 1))
termination_by l => l.length

/-- The pieces in order are the whole. -/
theorem flatten_pieces {α : Type} (most : Nat) (l : List α) : (pieces most l).flatten = l := by
  fun_induction pieces most l with
  | case1 => rfl
  | case2 first rest ih => simp [ih]

theorem length_of_mem_pieces {α : Type} {most : Nat} {l piece : List α}
    (mem : piece ∈ pieces most l) : 0 < piece.length ∧ piece.length ≤ max most 1 := by
  fun_induction pieces most l with
  | case1 => cases mem
  | case2 first rest ih =>
    rcases List.mem_cons.1 mem with rfl | mem
    · simp only [List.length_cons, List.length_take]
      omega
    · exact ih mem

end LogicCapture
