import LogicCapture.Analyser.Armed
import LogicCapture.Proofs.Session.Transfers

/-!
# Following the status

Polling leaves one status byte after the other on record. All of them but the
last say that the capture is still going on, and the stage is that of the last
byte which says anything of it.
-/

namespace LogicCapture

/-- The number by which a status byte says it. -/
def Status.code : Status → Nat
  | idle => 0
  | pretrigger => 1
  | armed => 2
  | run => 3
  | done => 4

theorem Status.toNat_and_seven (byte : UInt8) : (byte &&& 0b111).toNat = byte.toNat % 8 := by
  rw [UInt8.toNat_and]
  exact Nat.and_two_pow_sub_one_eq_mod byte.toNat 3

/-- Only the lowest three bits of a status byte count. -/
theorem Status.code_of_ofByte? {byte : UInt8} {status : Status}
    (legal : ofByte? byte = some status) : byte.toNat % 8 = status.code := by
  rw [← toNat_and_seven]
  unfold ofByte? at legal
  split at legal
  · next is => cases legal; exact is
  · next is => cases legal; exact is
  · next is => cases legal; exact is
  · next is => cases legal; exact is
  · next is => cases legal; exact is
  · cases legal

/-- Every status is said by the bytes with its number in their lowest bits. -/
theorem Status.ofByte?_of_code {byte : UInt8} {status : Status}
    (said : byte.toNat % 8 = status.code) : ofByte? byte = some status := by
  rw [← toNat_and_seven] at said
  unfold ofByte?
  rw [said]
  cases status <;> rfl

namespace Analyser

open Session

variable {σ : Type} [Link σ]

/-- The moves that ask for the status. -/
def statusMoves : List Move := requestMoves .readStatus [0x81] 1

/-- The transfers that bring the status byte. -/
def statusRead (byte : UInt8) : List Exchange :=
  [.sent [0x81] (.ok ()), .received 1 (.ok [byte])]

theorem statusRead_follows (byte : UInt8) : Follows statusMoves (statusRead byte) none :=
  .next rfl rfl (.next rfl (Exchange.fault?_received_ok rfl) .done)

/-- The stage that a status byte stands for. -/
def stageOfByte? (byte : UInt8) : Option Stage := (Status.ofByte? byte).bind stageOf?

/-- The stage that status bytes lead to: that of the last one which says
something of the acquisition. -/
def mirrored (stage : Stage) (bytes : List UInt8) : Stage :=
  (bytes.filterMap stageOfByte?).getLastD stage

theorem mirrored_cons (stage : Stage) (byte : UInt8) (bytes : List UInt8) :
    mirrored stage (byte :: bytes) = mirrored ((stageOfByte? byte).getD stage) bytes := by
  unfold mirrored
  cases said : stageOfByte? byte with
  | none =>
    rw [List.filterMap_cons_none said]
    rfl
  | some next =>
    rw [List.filterMap_cons_some said, List.getLastD_cons]
    rfl

/-- Status bytes that came while the capture was waited for, the last one of them
when it was done if it was `found` done. -/
inductive Awaited : (bytes : List UInt8) → (found : Bool) → Prop
  | nil : Awaited [] false
  | found {byte : UInt8} : Status.ofByte? byte = some .done → Awaited [byte] true
  | waited {byte : UInt8} {bytes : List UInt8} {found : Bool} {status : Status} :
    Status.ofByte? byte = some status → status ≠ .done → Awaited bytes found →
      Awaited (byte :: bytes) found

/-- None of the bytes but the last says that the capture is done. -/
theorem Awaited.exists_last {bytes : List UInt8} {found : Bool} (awaited : Awaited bytes found)
    (done : found = true) : ∃ waiting last, bytes = waiting ++ [last] ∧
      (∀ byte ∈ waiting, byte.toNat % 8 < 4) ∧ last.toNat % 8 = 4 := by
  induction awaited with
  | nil => cases done
  | @found byte said => exact ⟨[], byte, rfl, nofun, Status.code_of_ofByte? said⟩
  | @waited byte bytes found status legal waiting _ ih =>
    obtain ⟨more, last, rfl, earlier, said⟩ := ih done
    refine ⟨byte :: more, last, rfl, List.forall_mem_cons.2 ⟨?_, earlier⟩, said⟩
    rw [Status.code_of_ofByte? legal]
    cases status with
    | done => exact absurd rfl waiting
    | idle | pretrigger | armed | run => decide

/-- A poll that failed: a transfer did, or the status byte means nothing. -/
def PollFails (made : List Exchange) (error : AnalyserError) : Prop :=
  Breaks statusMoves made error ∨
    ∃ byte, Status.ofByte? byte = none ∧ error = .illegalStatus byte ∧ made = statusRead byte

theorem readStatus_ends (a : Analyser (Recorded σ)) :
    Ends readStatus a
      (fun made status b => b.stage = a.stage ∧
        ∃ byte, Status.ofByte? byte = some status ∧ made = statusRead byte)
      (fun made error b => b.stage = a.stage ∧ PollFails made error) := by
  refine (requestByte_ends .readStatus .readStatus a).bind ?_ ?_
  · exact fun _ _ _ ⟨stage, breaks⟩ => ⟨stage, .inl breaks⟩
  · intro made byte b _ requested
    rcases requested with ⟨stage, rfl⟩
    split
    · next status legal => exact .pure ⟨stage, byte, legal, rfl⟩
    · next illegal => exact .throw ⟨stage, .inr ⟨byte, illegal, rfl, rfl⟩⟩

/-- A poll goes to the stage that the status byte stands for. -/
theorem poll_ends (a : Analyser (Recorded σ)) :
    Ends poll a
      (fun made status b => ∃ byte, Status.ofByte? byte = some status ∧ made = statusRead byte ∧
        b.stage = (stageOfByte? byte).getD a.stage)
      (fun made error b => b.stage = a.stage ∧ PollFails made error) := by
  refine (readStatus_ends a).bind (fun _ _ _ bad => bad) ?_
  intro made status b _ read
  rcases read with ⟨stage, byte, legal, rfl⟩
  have stands : stageOfByte? byte = stageOf? status := by
    rw [stageOfByte?, legal, Option.bind_some]
  split
  · next next_stage said =>
    obtain ⟨c, entered, link, there⟩ := enter_run next_stage b
    refine .after_quiet entered link (.pure ⟨byte, legal, rfl, ?_⟩)
    rw [there, stands, said]
    rfl
  · next unsaid =>
    refine .pure ⟨byte, legal, rfl, ?_⟩
    rw [stage, stands, unsaid]
    rfl

theorem pollUntilDone_ends (limit : Nat) (before : Option Status) (a : Analyser (Recorded σ)) :
    Ends (pollUntilDone limit before) a
      (fun made found b => ∃ bytes, Awaited bytes found ∧ made = bytes.flatMap statusRead ∧
        b.stage = mirrored a.stage bytes)
      (fun made error b => ∃ bytes tail, Awaited bytes false ∧
        made = bytes.flatMap statusRead ++ tail ∧ PollFails tail error ∧
        b.stage = mirrored a.stage bytes) := by
  induction limit generalizing before a with
  | zero => exact .pure ⟨[], .nil, rfl, rfl⟩
  | succ limit ih =>
    refine (poll_ends a).bind ?_ ?_
    · exact fun made error b ⟨stage, fails⟩ => ⟨[], made, .nil, rfl, fails, stage⟩
    · intro made status b _ polled
      rcases polled with ⟨byte, legal, rfl, stage⟩
      -- the same follows whether or not the status is a new one and noted
      have rest : ∀ c : Analyser (Recorded σ), c.stage = b.stage →
          Ends (if status = .done then pure true else pollUntilDone limit (some status)) c
            (fun more found d => ∃ bytes, Awaited bytes found ∧
              statusRead byte ++ more = bytes.flatMap statusRead ∧
              d.stage = mirrored a.stage bytes)
            (fun more error d => ∃ bytes tail, Awaited bytes false ∧
              statusRead byte ++ more = bytes.flatMap statusRead ++ tail ∧
              PollFails tail error ∧ d.stage = mirrored a.stage bytes) := by
        intro c same
        split
        · next done =>
          refine .pure ⟨[byte], .found (done ▸ legal), rfl, ?_⟩
          rw [mirrored_cons, ← stage, ← same]
          rfl
        · next waiting =>
          refine (ih (some status) c).imp ?_ ?_
          · intro more found d waited
            rcases waited with ⟨bytes, awaited, rfl, stage'⟩
            refine ⟨byte :: bytes, .waited legal waiting awaited, rfl, ?_⟩
            rw [mirrored_cons, ← stage, ← same, stage']
          · intro more error d failed
            rcases failed with ⟨bytes, tail, awaited, rfl, fails, stage'⟩
            refine ⟨byte :: bytes, tail, .waited legal waiting awaited, ?_, fails, ?_⟩
            · rw [List.flatMap_cons, List.append_assoc]
            · rw [mirrored_cons, ← stage, ← same, stage']
      dsimp only
      split
      · exact rest b rfl
      · exact .after_quiet rfl rfl (rest _ rfl)

theorem pollInTime_ends (elapsed : Nat → Nat) (timeout limit look : Nat)
    (a : Analyser (Recorded σ)) :
    Ends (pollInTime elapsed timeout limit look) a
      (fun made found _ => ∃ bytes, Awaited bytes found ∧ made = bytes.flatMap statusRead)
      (fun _ _ _ => True) := by
  induction limit generalizing look a with
  | zero => exact .pure ⟨[], .nil, rfl⟩
  | succ limit ih =>
    refine (poll_ends a).bind (fun _ _ _ _ => trivial) ?_
    intro made status b _ polled
    rcases polled with ⟨byte, legal, rfl, -⟩
    split
    · next done => exact .pure ⟨[byte], .found (done ▸ legal), rfl⟩
    · next waiting =>
      dsimp only
      split
      · exact .throw trivial
      · refine (ih (look + 1) b).imp ?_ fun _ _ _ _ => trivial
        intro more found c waited
        rcases waited with ⟨bytes, awaited, rfl⟩
        exact ⟨byte :: bytes, .waited legal waiting awaited, rfl⟩

end Analyser

end LogicCapture
