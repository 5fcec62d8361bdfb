import LogicCapture.Link.Recorded
import LogicCapture.Link.Script

/-!
# Links over time

Every transfer changes the state of a link. `Link.Reaches` is what transfers of
any kind and number can make of it. A link is steady if its transfer unit is
the same in all these states, and willing if no send fails in any of them.
-/

namespace LogicCapture

namespace Link

variable {σ : Type} [Link σ] {link : σ} {m : Nat}

/-- Transfers take the link to this state. -/
inductive Reaches (link : σ) : σ → Prop
  | refl : Reaches link link
  | send {t : σ} (bytes : List UInt8) : Reaches link t → Reaches link (Link.send bytes t).link
  | receive {t : σ} (asked : Nat) : Reaches link t → Reaches link (Link.receive asked t).link

theorem Reaches.trans {t u : σ} (first : Reaches link t) (second : Reaches t u) :
    Reaches link u := by
  induction second with
  | refl => exact first
  | send bytes _ ih => exact ih.send bytes
  | receive asked _ ih => exact ih.receive asked

/-- The transfer unit is `m` and stays so. -/
def Steady (m : Nat) (link : σ) : Prop := ∀ t, Reaches link t → Link.unit t = m

theorem Steady.reaches {t : σ} (steady : Steady m link) (reached : Reaches link t) :
    Steady m t :=
  fun u further => steady u (reached.trans further)

theorem Steady.unit_eq (steady : Steady m link) : Link.unit link = m := steady link .refl

/-- Sends succeed now and later. -/
def Willing (link : σ) : Prop :=
  ∀ t, Reaches link t → ∀ bytes, (Link.send bytes t).result = .ok ()

theorem Willing.send {bytes : List UInt8} (willing : Willing link) :
    Willing (Link.send bytes link).link :=
  fun u further => willing u ((Reaches.refl.send bytes).trans further)

end Link

/-! ## Scripted links -/

namespace Script

open Link

theorem unit_send (bytes : List UInt8) (s : Script) : (Link.send bytes s).link.unit = s.unit := by
  change (Script.send bytes s).link.unit = s.unit
  unfold Script.send
  cases s.faults.lookup s.sends <;> rfl

theorem unit_receive (asked : Nat) (s : Script) : (Link.receive asked s).link.unit = s.unit := by
  change (Script.receive asked s).link.unit = s.unit
  unfold Script.receive
  cases s.replies <;> rfl

theorem steady (s : Script) : Steady s.unit s := by
  intro t reached
  induction reached with
  | refl => rfl
  | send bytes _ ih => exact (unit_send bytes _).trans ih
  | receive asked _ ih => exact (unit_receive asked _).trans ih

/-- Without faults in the script all sends succeed. -/
theorem willing {s : Script} (faultless : s.faults = []) : Willing s := by
  have stays : ∀ t, Reaches s t → t.faults = [] := by
    intro t reached
    induction reached with
    | refl => exact faultless
    | @send t bytes _ ih =>
      change (Script.send bytes t).link.faults = []
      unfold Script.send
      rw [ih]
      rfl
    | @receive t asked _ ih =>
      change (Script.receive asked t).link.faults = []
      unfold Script.receive
      cases t.replies with
      | nil => exact ih
      | cons => exact ih
  intro t reached bytes
  change (Script.send bytes t).result = .ok ()
  unfold Script.send
  rw [stays t reached]
  rfl

end Script

/-! ## Exchanges -/

namespace Exchange

/-- Bytes sent or asked for. -/
def size : Exchange → Nat
  | sent bytes _ => bytes.length
  | received asked _ => asked

/-- The exchange went to the analyser, not from it. -/
def IsSend : Exchange → Prop
  | sent _ _ => True
  | received _ _ => False

end Exchange

end LogicCapture
