import LogicCapture.Proofs.Link.Steady
import LogicCapture.Proofs.Session.Invariants

/-!
# Sizes of transfers

A link says how many bytes one of its transfers moves. Frames that configure the
analyser are cut to that size, and requests for samples ask for no more; but a
request itself is sent whole, and the geometry is asked for in one piece of
eight bytes. So the bound holds on links that move eight bytes, and on smaller
ones it is exactly these two transfers that break it.
-/

namespace LogicCapture

variable {σ : Type} [Link σ] {m : Nat}

/-! ## Orderly links -/

/-- What sessions put on a link that moves `most` bytes. -/
def Exchange.Permitted (most : Nat) (e : Exchange) : Prop :=
  e.size ≤ most ∨ (∃ result, e = .received 8 result) ∨
    ∃ count result, e = .sent (Wire.bufferFrame count) result

/-- A link of unit `m` whose record shows permitted exchanges only. Single bytes
are sent even if it moves none. -/
structure Recorded.Orderly (m : Nat) (r : Recorded σ) : Prop where
  steady : Link.Steady m r.link
  permitted : ∀ e ∈ r.exchanges, e.Permitted (max m 1)

theorem Recorded.Orderly.send {r : Recorded σ} (orderly : r.Orderly m) {bytes : List UInt8}
    (allowed : ∀ result, (Exchange.sent bytes result).Permitted (max m 1)) :
    (Link.send bytes r).link.Orderly m := by
  refine ⟨orderly.steady.reaches (Link.Reaches.refl.send bytes), fun e mem => ?_⟩
  rcases List.mem_cons.1 mem with rfl | mem
  · exact allowed _
  · exact orderly.permitted e mem

theorem Recorded.Orderly.receive {r : Recorded σ} (orderly : r.Orderly m) {asked : Nat}
    (allowed : ∀ result, (Exchange.received asked result).Permitted (max m 1)) :
    (Link.receive asked r).link.Orderly m := by
  refine ⟨orderly.steady.reaches (Link.Reaches.refl.receive asked), fun e mem => ?_⟩
  rcases List.mem_cons.1 mem with rfl | mem
  · exact allowed _
  · exact orderly.permitted e mem

/-! ## Sessions keep the link orderly -/

namespace Analyser

open Session

/-- The session puts nothing but permitted exchanges on the link. -/
abbrev KeepsOrder {α : Type} (m : Nat) (x : Session (Recorded σ) α) : Prop :=
  Keeps (·.link.Orderly m) x

theorem keepsOrder_sendPieces (phase : Phase) (frame : List UInt8) :
    KeepsOrder m (sendPieces phase frame : Session (Recorded σ) Unit) := by
  intro a orderly
  -- the unit that cuts the frame is the one of the link at the start
  have unit : Link.unit a.link = m := orderly.steady.unit_eq
  have cut : KeepsOrder m ((pieces m frame).forM fun piece =>
      during phase (Link.send piece) : Session (Recorded σ) Unit) := by
    refine .forM fun piece mem => keeps_during fun link kept => kept.send fun result => ?_
    exact .inl (length_of_mem_pieces mem).2
  rw [after, sendPieces_eq, unit]
  exact cut.bind (fun _ => keeps_note _) a orderly

theorem keepsOrder_request {phase : Phase} {frame : List UInt8} {length : Nat}
    (sendable : ∀ result, (Exchange.sent frame result).Permitted (max m 1))
    (receivable : ∀ result, (Exchange.received length result).Permitted (max m 1)) :
    KeepsOrder m (request phase frame length : Session (Recorded σ) (List UInt8)) := by
  refine (keeps_during fun link kept => kept.send sendable).bind fun _ => ?_
  refine (keeps_during fun link kept => kept.receive receivable).bind fun reply => ?_
  split
  · exact .throw _
  · exact .pure _

theorem keepsOrder_requestByte (phase : Phase) (command : Wire.Command) :
    KeepsOrder m (requestByte phase command : Session (Recorded σ) UInt8) := by
  refine (keepsOrder_request (fun _ => .inl (Nat.le_max_right m 1))
    fun _ => .inl (Nat.le_max_right m 1)).bind fun reply => ?_
  split
  · exact .pure _
  · exact .throw _

/-- Requests for samples ask for no more than the link moves. -/
theorem keepsOrder_requestSamples {most : Nat} (some_fit : 0 < most) (fits : 2 * most ≤ m)
    (missing : Nat) :
    KeepsOrder m (requestSamples most some_fit missing : Session (Recorded σ) (List UInt16)) := by
  induction missing using Nat.strongRecOn with
  | ind missing ih =>
    rw [requestSamples]
    split
    · exact .pure _
    · have asked : 2 * min most missing ≤ max m 1 := by omega
      refine (keepsOrder_request (fun _ => .inr (.inr ⟨_, _, rfl⟩)) fun _ => .inl asked).bind
        fun bytes => ?_
      exact (ih _ (by omega)).bind fun _ => .pure _

theorem keepsOrder_readSamples (count : Nat) :
    KeepsOrder m (readSamples count : Session (Recorded σ) (List UInt16)) := by
  intro a orderly
  have unit : Link.unit a.link = m := orderly.steady.unit_eq
  unfold after
  rcases Nat.lt_or_ge (Link.unit a.link) 2 with small | carries
  · rw [readSamples_of_small small]
    exact orderly
  · rw [readSamples_of_carries carries]
    refine ((keeps_enter _).bind fun _ => ?_) a orderly
    refine (keepsOrder_requestSamples _ (by omega) _).bind fun _ => ?_
    exact (keeps_note _).bind fun _ => (keeps_enter _).bind fun _ => .pure _

/-- All sessions keep the link orderly. -/
theorem sessionInvariant_orderly :
    SessionInvariant fun a : Analyser (Recorded σ) => a.link.Orderly m where
  note line _ := keeps_note line
  sendPieces := keepsOrder_sendPieces
  requestByte := keepsOrder_requestByte
  requestGeometry :=
    keepsOrder_request (fun _ => .inl (Nat.le_max_right m 1)) fun _ => .inr (.inl ⟨_, rfl⟩)
  enter := keeps_enter
  readSamples := keepsOrder_readSamples

end Analyser

/-! ## Reachable handles -/

namespace Handle

open Session Analyser

theorem Reachable.permitted {link : σ} {h : Handle (Recorded σ)} (reachable : Reachable link h)
    (steady : Link.Steady m link) : ∀ e ∈ h.record, e.Permitted (max m 1) := by
  have fresh : Recorded.Orderly m (⟨link, []⟩ : Recorded σ) := ⟨steady, nofun⟩
  have orderly : SessionInvariant fun a : Analyser (Recorded σ) => a.link.Orderly m :=
    sessionInvariant_orderly
  exact (reachable.invariant (·.link.Orderly m) fresh
    (orderly.probe (fun _ _ holds => holds) fun _ _ holds => holds)
    (fun horizon call => orderly.idleSession horizon call fun _ => keeps_renew)
    orderly.armedSession).permitted

/-! ## Transfers that do not fit -/

/-- A handle on a scripted link of unit `m` that was asked for its geometry. -/
def geometryAsked (m : Nat) : Handle (Recorded Script) :=
  (perform ⟨fun _ => 0, 0⟩ (idle (wrapped { unit := m })) (.idle .readGeometry)).2

theorem reachable_geometryAsked (m : Nat) : Reachable { unit := m } (geometryAsked m) :=
  Reachable.fresh.call _ _

theorem record_geometryAsked (m : Nat) :
    (geometryAsked m).record = [.received 8 (.error (.timeout 0)), .sent [0x84] (.ok ())] :=
  rfl

/-- A handle on a scripted link of unit two that was asked for one sample. -/
def sampleAsked : Handle (Recorded Script) :=
  (perform ⟨fun _ => 0, 0⟩ (idle (wrapped { unit := 2 })) (.idle (.readSamples 1))).2

theorem reachable_sampleAsked : Reachable { unit := 2 } sampleAsked := Reachable.fresh.call _ _

theorem record_sampleAsked :
    sampleAsked.record =
      [.received 2 (.error (.timeout 0)), .sent (Wire.bufferFrame 2) (.ok ())] := by
  have session : sampleAsked.analyser = after (readSamples 1) (wrapped { unit := 2 }) :=
    (analyser_performIdle _ _ _).trans (after_map _ _ _)
  have carries : 2 ≤ Link.unit (wrapped ({ unit := 2 } : Script)).link := Nat.le_refl 2
  rw [record, session, after, readSamples_of_carries carries]
  unfold requestSamples
  rfl

end Handle

/-- Holds of every transfer that any calls make over any link of unit `m`. -/
def Link.Always (m : Nat) (P : Exchange → Prop) : Prop :=
  ∀ (σ : Type) [Link σ] (link : σ), Steady m link →
    ∀ h, Handle.Reachable link h → ∀ e ∈ h.record, P e

theorem Link.always_permitted : Link.Always m (Exchange.Permitted (max m 1)) :=
  fun _ _ _ steady _ reachable => reachable.permitted steady

/-- On a small link the reply with the geometry does not fit. -/
theorem Link.not_always_fits (small : m < 8) : ¬ Always m fun e => e.size ≤ m := by
  intro always
  have mem : Exchange.received 8 (.error (.timeout 0)) ∈ (Handle.geometryAsked m).record :=
    Handle.record_geometryAsked m ▸ List.mem_cons_self
  have fits : 8 ≤ m := always Script { unit := m } (Script.steady _) _
    (Handle.reachable_geometryAsked m) _ mem
  omega

/-- On the smallest link the request for samples does not fit. -/
theorem Link.not_always_sends_fit : ¬ Always 2 fun e => e.IsSend → e.size ≤ 2 := by
  intro always
  have mem : Exchange.sent (Wire.bufferFrame 2) (.ok ()) ∈ Handle.sampleAsked.record :=
    Handle.record_sampleAsked ▸ List.mem_cons_of_mem _ List.mem_cons_self
  have fits : 3 ≤ 2 := always Script { unit := 2 } (Script.steady _) _
    Handle.reachable_sampleAsked _ mem trivial
  omega

/-- Transfers are sure to fit from a unit of eight bytes on, and sends from
three on. What does not fit on a smaller link is the reply with the geometry or
a request for samples. -/
theorem Link.transfers_fit_iff (two_le : 2 ≤ m) :
    (Always m (fun e => e.size ≤ m) ↔ 8 ≤ m) ∧
      (Always m (fun e => e.IsSend → e.size ≤ m) ↔ 3 ≤ m) ∧
      Always m fun e => m < e.size →
        (∃ result, e = .received 8 result) ∨
          ∃ count result, e = .sent (Wire.bufferFrame count) result := by
  have permitted : Always m (Exchange.Permitted (max m 1)) := always_permitted
  rw [Nat.max_eq_left (Nat.le_of_succ_le two_le)] at permitted
  refine ⟨⟨fun always => ?_, fun large σ _ link steady h reachable e mem => ?_⟩,
    ⟨fun always => ?_, fun large σ _ link steady h reachable e mem isSend => ?_⟩,
    fun σ _ link steady h reachable e mem exceeds => ?_⟩
  · rcases Nat.lt_or_ge m 8 with small | large
    · exact absurd always (not_always_fits small)
    · exact large
  · rcases permitted σ link steady h reachable e mem with fits | ⟨_, rfl⟩ | ⟨_, _, rfl⟩
    · exact fits
    · exact large
    · have three_le : 3 ≤ m := by omega
      exact three_le
  · rcases Nat.lt_or_ge m 3 with small | large
    · obtain rfl : m = 2 := by omega
      exact absurd always not_always_sends_fit
    · exact large
  · rcases permitted σ link steady h reachable e mem with fits | ⟨_, rfl⟩ | ⟨_, _, rfl⟩
    · exact fits
    · exact isSend.elim
    · exact large
  · rcases permitted σ link steady h reachable e mem with fits | broken
    · exact absurd fits (Nat.not_le_of_lt exceeds)
    · exact broken

/-- A link that moves four bytes carries all that is sent, but eight bytes are
asked of it. -/
theorem Link.transfers_fit_iff_four :
    2 ≤ 4 ∧ (¬ Always 4 fun e => e.size ≤ 4) ∧ (Always 4 fun e => e.IsSend → e.size ≤ 4) ∧
      ∃ e ∈ (Handle.geometryAsked 4).record, 4 < e.size ∧ ∃ result, e = .received 8 result := by
  have two_le : 2 ≤ 4 := by omega
  obtain ⟨all, sends, broken⟩ := Link.transfers_fit_iff two_le
  have mem : Exchange.received 8 (.error (.timeout 0)) ∈ (Handle.geometryAsked 4).record :=
    Handle.record_geometryAsked 4 ▸ List.mem_cons_self
  have exceeds : 4 < (Exchange.received 8 (.error (.timeout 0))).size := by
    change 4 < 8
    omega
  refine ⟨two_le, fun always => absurd (all.1 always) (by omega), sends.2 (by omega), _, mem,
    exceeds, ?_⟩
  rcases broken Script { unit := 4 } (Script.steady _) _ (Handle.reachable_geometryAsked 4) _ mem
    exceeds with reply | ⟨_, _, eq⟩
  · exact reply
  · cases eq

end LogicCapture
