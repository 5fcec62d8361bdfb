import LogicCapture.Link.Basic

/-!
Links with a record. A recorded link behaves as the link inside it and keeps
every transfer with its result, so that it can be told what went over the wire.
-/

namespace LogicCapture

/-- One transfer as it was asked for, and what came of it. -/
inductive Exchange where
  | sent (bytes : List UInt8) (result : Except LinkError Unit)
  | received (asked : Nat) (result : Except LinkError (List UInt8))

/-- A link and its transfers, newest first. -/
structure Recorded (σ : Type) where
  link : σ
  exchanges : List Exchange := []

namespace Recorded

variable {σ : Type} [Link σ]

instance : Link (Recorded σ) where
  unit r := Link.unit r.link
  send bytes r :=
    let t := Link.send bytes r.link
    { result := t.result, link := ⟨t.link, .sent bytes t.result :: r.exchanges⟩,
      accepted := t.accepted }
  receive asked r :=
    let t := Link.receive asked r.link
    { result := t.result, link := ⟨t.link, .received asked t.result :: r.exchanges⟩,
      accepted := t.accepted }

end Recorded

/-- What was sent in full, oldest first. -/
def Recorded.delivered {σ : Type} (r : Recorded σ) : List (List UInt8) :=
  r.exchanges.reverse.filterMap fun
    | .sent bytes (.ok _) => some bytes
    | _ => none

/-- How many bytes were asked for each time, oldest first. -/
def Recorded.asked {σ : Type} (r : Recorded σ) : List Nat :=
  r.exchanges.reverse.filterMap fun
    | .received asked _ => some asked
    | _ => none

end LogicCapture
