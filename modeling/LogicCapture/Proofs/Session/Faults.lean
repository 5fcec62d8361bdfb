import LogicCapture.Proofs.Session.Configuration
import LogicCapture.Proofs.Session.Polling
import LogicCapture.Proofs.Session.ReadBack
import Mathlib.Control.Monad.Basic

/-!
# Faults in a capture

A capture on which nothing goes wrong is a list of moves: the frames that set it
up, the status requests, the requests for the samples. How many status requests
there are is up to the analyser, so the list depends on the status bytes so far.
Part by part, the sessions below follow their moves up to the first transfer at
fault. The capture does so as a whole, and its error and its stage are those of
the phase that was interrupted.
-/

namespace LogicCapture

/-! ## Moves of a capture -/

/-- The byte that a status request brought. -/
def Exchange.statusByte? : Exchange → Option UInt8
  | received 1 (.ok [byte]) => some byte
  | _ => none

namespace Analyser

/-- The moves from the start bit on, as the status bytes so far make them: the
status is asked for until it says that the capture is done, then `readBack` is
what is left. After a byte that means nothing there is nothing more to do. -/
def waitMoves (readBack : List Move) : (bytes : List UInt8) → List Move
  | [] => statusMoves
  | byte :: bytes => statusMoves ++ match Status.ofByte? byte with
    | some .done => readBack
    | some _ => waitMoves readBack bytes
    | none => []

theorem waitMoves_of_awaited {readBack : List Move} {bytes : List UInt8} {found : Bool}
    (awaited : Awaited bytes found) : waitMoves readBack bytes =
      bytes.flatMap (fun _ => statusMoves) ++ if found then readBack else statusMoves := by
  induction awaited with
  | nil => rfl
  | found done =>
    rw [waitMoves, done]
    rfl
  | @waited byte bytes found status legal waiting _ ih =>
    rw [waitMoves, legal, List.flatMap_cons, List.append_assoc]
    cases status with
    | done => exact absurd rfl waiting
    | idle | pretrigger | armed | run => rw [ih]

/-- The stage in which a capture stops at a fault, after the status bytes so far. -/
def stageAtFault (phase : Phase) (bytes : List UInt8) : Stage :=
  match phase with
  | .readStatus => mirrored .armed bytes
  | .readBuffer => .readingBack
  | _ => .configuring

end Analyser

/-- The moves of a capture over a link of unit `m` as long as nothing goes
wrong, given the status bytes so far. -/
def Program.captureMoves (p : Program) (m : Nat) (bytes : List UInt8) : List Move :=
  p.setUp.flatMap (frameMoves m) ++
    Analyser.waitMoves ((Analyser.requestLengths m p.settings.length).flatMap Analyser.bufferMoves)
      bytes

/-! ## Status bytes on record -/

section Follows

variable {moves : List Move} {made : List Exchange} {stop : Option (Phase × LinkError)}

theorem Exchange.statusByte?_eq_none {e : Exchange} (other : e.ask ≠ .receive 1) :
    e.statusByte? = none := by
  unfold statusByte?
  split
  · exact absurd rfl other
  · rfl

theorem Exchange.statusByte?_of_fault {e : Exchange} {cause : LinkError}
    (fault : e.fault? = some cause) : e.statusByte? = none := by
  unfold statusByte?
  split
  · cases fault
  · rfl

/-- Where no single byte is asked for, no status byte comes. -/
theorem Follows.statusBytes_eq_nil (follows : Follows moves made stop)
    (others : ∀ move ∈ moves, move.ask ≠ .receive 1) :
    made.filterMap Exchange.statusByte? = [] := by
  induction follows with
  | done => rfl
  | next asks _ _ ih =>
    have other := others _ List.mem_cons_self
    rw [← asks] at other
    rw [List.filterMap_cons_none (Exchange.statusByte?_eq_none other)]
    exact ih fun move mem => others move (List.mem_cons_of_mem _ mem)
  | stopped _ fault => exact List.filterMap_cons_none (Exchange.statusByte?_of_fault fault)

/-- A status request that failed brought no status byte. -/
theorem Follows.statusBytes_of_stopped {fault : Phase × LinkError}
    (follows : Follows Analyser.statusMoves made (some fault)) :
    made.filterMap Exchange.statusByte? = [] := by
  cases follows with
  | stopped _ fault => exact List.filterMap_cons_none (Exchange.statusByte?_of_fault fault)
  | @next _ e _ _ _ asks _ rest =>
    have sent : e.ask ≠ .receive 1 := by
      rw [asks]
      nofun
    rw [List.filterMap_cons_none (Exchange.statusByte?_eq_none sent)]
    cases rest with
    | stopped _ fault => exact List.filterMap_cons_none (Exchange.statusByte?_of_fault fault)
    | next _ _ rest => cases rest

theorem Follows.phase_mem {phase : Phase} {cause : LinkError}
    (follows : Follows moves made (some (phase, cause))) : ∃ move ∈ moves, move.phase = phase := by
  generalize some_eq : some (phase, cause) = stop at follows
  induction follows with
  | done => cases some_eq
  | next _ _ _ ih =>
    obtain ⟨move, mem, same⟩ := ih some_eq
    exact ⟨move, List.mem_cons_of_mem _ mem, same⟩
  | stopped =>
    cases some_eq
    exact ⟨_, List.mem_cons_self, rfl⟩

end Follows

namespace Analyser

open Session

theorem statusBytes_flatMap_statusRead (bytes : List UInt8) :
    (bytes.flatMap statusRead).filterMap Exchange.statusByte? = bytes := by
  induction bytes with
  | nil => rfl
  | cons byte bytes ih =>
    rw [List.flatMap_cons, List.filterMap_append, ih]
    rfl

theorem statusReads_follow (bytes : List UInt8) :
    Follows (bytes.flatMap fun _ => statusMoves) (bytes.flatMap statusRead) none := by
  induction bytes with
  | nil => exact .done
  | cons byte bytes ih => exact (statusRead_follows byte).append ih

theorem setUp_moves {p : Program} {m : Nat} {move : Move}
    (mem : move ∈ p.setUp.flatMap (frameMoves m)) :
    move.ask ≠ .receive 1 ∧ ∀ bytes, stageAtFault move.phase bytes = .configuring := by
  obtain ⟨frame, frame_mem, move_mem⟩ := List.mem_flatMap.1 mem
  obtain ⟨piece, -, rfl⟩ := List.mem_map.1 move_mem
  refine ⟨nofun, fun bytes => ?_⟩
  have phases : ∀ frame ∈ p.setUp, ∀ bytes, stageAtFault frame.1 bytes = .configuring := by
    simp [Program.setUp, Program.setUpFrames, stageAtFault]
  exact phases frame frame_mem bytes

theorem readBack_moves {m count : Nat} {move : Move}
    (mem : move ∈ (requestLengths m count).flatMap bufferMoves) :
    move.ask ≠ .receive 1 ∧ move.phase = .readBuffer := by
  obtain ⟨length, length_mem, move_mem⟩ := List.mem_flatMap.1 mem
  have even : 2 ∣ length := by
    refine dvd_of_mem_pieceLengths ?_ (Nat.dvd_mul_right 2 count) length_mem
    rw [requestUnit]
    omega
  rcases List.mem_cons.1 move_mem with rfl | move_mem
  · refine ⟨fun sent => ?_, rfl⟩
    cases sent
  · rcases List.mem_singleton.1 move_mem with rfl
    refine ⟨fun one => ?_, rfl⟩
    have length_one : length = 1 := Ask.receive.inj one
    omega

variable {σ : Type}

/-- If anything was wrong with the transfers then the session failed with the first
fault, and the transfers are those moves up to it which belong to the status bytes
that came before. -/
def StopsAtFault (moves : List UInt8 → List Move) (made : List Exchange) (error : AnalyserError)
    (b : Analyser (Recorded σ)) : Prop :=
  (∀ e ∈ made, e.fault? = none) ∨ ∃ phase cause, error = .link phase cause ∧
    Follows (moves (made.filterMap Exchange.statusByte?)) made (some (phase, cause)) ∧
    b.stage = stageAtFault phase (made.filterMap Exchange.statusByte?)

theorem pollFails_stops {readBack : List Move} {bytes : List UInt8} {tail : List Exchange}
    {error : AnalyserError} {b : Analyser (Recorded σ)} (awaited : Awaited bytes false)
    (fails : PollFails tail error) (stage : b.stage = mirrored .armed bytes) :
    StopsAtFault (waitMoves readBack) (bytes.flatMap statusRead ++ tail) error b := by
  have polled := statusReads_follow bytes
  rcases fails with ⟨phase, cause, rfl, follows⟩ | ⟨byte, -, -, rfl⟩
  · have phases : ∀ move ∈ statusMoves, move.phase = .readStatus := by decide
    obtain ⟨move, mem, rfl⟩ := follows.phase_mem
    refine .inr ⟨_, cause, rfl, ?_⟩
    rw [List.filterMap_append, statusBytes_flatMap_statusRead, follows.statusBytes_of_stopped,
      List.append_nil, waitMoves_of_awaited awaited, phases move mem, stage]
    rw [phases move mem] at follows
    exact ⟨polled.append follows, rfl⟩
  · exact .inl (polled.append (statusRead_follows byte)).clean

variable [Link σ] {a : Analyser (Recorded σ)} {m : Nat}

theorem readReading_stops {settings : Settings} {bytes : List UInt8} (awaited : Awaited bytes true)
    (unit : Link.unit a.link = m) : Ends (some <$> readReading settings) a
      (fun made _ _ => ∀ e ∈ bytes.flatMap statusRead ++ made, e.fault? = none)
      (fun made => StopsAtFault
        (waitMoves ((requestLengths m settings.length).flatMap bufferMoves))
        (bytes.flatMap statusRead ++ made)) := by
  have polled := statusReads_follow bytes
  refine ((readReading_ends settings a).imp ?_ ?_).map fun _ _ _ clean => clean
  · intro made reading b read
    rcases read with ⟨-, parts, -, rfl, -⟩
    exact (polled.append (bufferReads_follow parts)).clean
  · intro made error b failed
    rcases failed with ⟨-, -, rfl, -⟩ | ⟨-, stage, phase, cause, rfl, follows⟩
    · exact .inl (List.append_nil _ ▸ polled.clean)
    · rw [unit] at follows
      obtain ⟨move, mem, rfl⟩ := follows.phase_mem
      have silent := follows.statusBytes_eq_nil fun move mem => (readBack_moves mem).1
      refine .inr ⟨_, cause, rfl, ?_⟩
      rw [List.filterMap_append, statusBytes_flatMap_statusRead, silent, List.append_nil,
        waitMoves_of_awaited awaited, stage, (readBack_moves mem).2]
      rw [(readBack_moves mem).2] at follows
      exact ⟨polled.append follows, rfl⟩

theorem wait_stops (limit : Nat) (settings : Settings) (steady : Link.Steady m a.link.link)
    (armed : a.stage = .armed) :
    Ends (wait limit settings) a (fun made _ _ => ∀ e ∈ made, e.fault? = none)
      (StopsAtFault (waitMoves ((requestLengths m settings.length).flatMap bufferMoves))) := by
  refine (pollUntilDone_ends limit none a).bind ?_ ?_
  · intro made error b failed
    rcases failed with ⟨bytes, tail, awaited, rfl, fails, stage⟩
    rw [armed] at stage
    exact pollFails_stops awaited fails stage
  · intro made found b extended polled
    rcases polled with ⟨bytes, awaited, rfl, -⟩
    cases found with
    | false => exact .pure ((List.append_nil _).symm ▸ (statusReads_follow bytes).clean)
    | true => exact readReading_stops awaited (steady.reaches extended.replayed.reaches).unit_eq

theorem capture_stops {p : Program} (limit : Nat) (same : p.geometry = a.geometry)
    (steady : Link.Steady m a.link.link) :
    Ends (capture limit p) a (fun made _ _ => ∀ e ∈ made, e.fault? = none)
      (StopsAtFault (p.captureMoves m)) := by
  obtain ⟨cuts, cutBy, started⟩ := start_delivers same
  rw [eq_frameMoves_of_cutBy steady cutBy] at started
  refine started.bind ?_ ?_
  · intro made error b failed
    rcases failed with ⟨stage, phase, cause, rfl, follows⟩
    obtain ⟨move, mem, rfl⟩ := follows.phase_mem
    refine .inr ⟨_, cause, rfl, follows.weaken, ?_⟩
    rw [stage, (setUp_moves mem).2]
  · intro made _ b extended went
    rcases went with ⟨armed, follows⟩
    have silent := follows.statusBytes_eq_nil fun move mem => (setUp_moves mem).1
    refine (wait_stops limit p.settings (steady.reaches extended.replayed.reaches) armed).imp ?_ ?_
    · intro more _ c clean
      exact List.forall_mem_append.2 ⟨follows.clean, clean⟩
    · intro more error c stops
      rcases stops with clean | ⟨phase, cause, rfl, broken, stage⟩
      · exact .inl (List.forall_mem_append.2 ⟨follows.clean, clean⟩)
      · refine .inr ⟨phase, cause, rfl, ?_⟩
        rw [List.filterMap_append, silent, List.nil_append]
        exact ⟨follows.append broken, stage⟩

/-- A capture stops at the first transfer at fault, wherever that is, and fails
with its phase and with what went wrong. Until then its transfers are those of a
capture on which nothing goes wrong, and the stage tells how far it got. -/
theorem capture_stops_at_fault {p : Program} {limit : Nat} {before later : List Exchange}
    {e : Exchange} {cause : LinkError} (same : p.geometry = a.geometry)
    (steady : Link.Steady m a.link.link)
    (record : (after (capture limit p) a).link.exchanges =
      (before ++ e :: later).reverse ++ a.link.exchanges)
    (fault : e.fault? = some cause) :
    later = [] ∧ (∀ x ∈ before, x.fault? = none) ∧
      ∃ phase done rest b,
        p.captureMoves m (before.filterMap Exchange.statusByte?) =
          done ++ ⟨phase, e.ask⟩ :: rest ∧
        before.map Exchange.ask = done.map Move.ask ∧
        capture limit p a = .error (.link phase cause) b ∧
        b.stage = stageAtFault phase (before.filterMap Exchange.statusByte?) := by
  have recorded : ∀ {b : Analyser (Recorded σ)} {made : List Exchange}, Extends a b made →
      after (capture limit p) a = b → made = before ++ e :: later := by
    intro b made extended last
    rw [last, extended.exchanges] at record
    exact List.reverse_inj.1 (List.append_cancel_right record)
  have faulty : ¬ ∀ x ∈ before ++ e :: later, x.fault? = none := fun clean => by
    have none_wrong := clean e (List.mem_append_right _ List.mem_cons_self)
    cases fault.symm.trans none_wrong
  have ends := capture_stops limit same steady
  cases run : capture limit p a with
  | ok reading? b =>
    obtain ⟨made, extended, clean⟩ := ends.ok run
    obtain rfl := recorded extended (after_of_ok run)
    exact absurd clean faulty
  | error error b =>
    obtain ⟨made, extended, clean | ⟨phase, cause', rfl, follows, stage⟩⟩ := ends.error run
    · obtain rfl := recorded extended (after_of_error run)
      exact absurd clean faulty
    · obtain rfl := recorded extended (after_of_error run)
      obtain ⟨rfl, clean, phase', done, rest, stops, moves, asks⟩ := follows.at_fault fault
      obtain ⟨rfl, rfl⟩ := Prod.mk.inj (Option.some.inj stops)
      have read : (before ++ [e]).filterMap Exchange.statusByte? =
          before.filterMap Exchange.statusByte? := by
        rw [List.filterMap_append,
          List.filterMap_cons_none (Exchange.statusByte?_of_fault fault), List.filterMap_nil,
          List.append_nil]
      rw [read] at moves stage
      exact ⟨rfl, clean, phase, done, rest, b, moves, asks, rfl, stage⟩

deriving instance DecidableEq for Exchange

/-- The smallest engine, to capture two samples. -/
def twoSamples : Program := .make ⟨⟨2, 1, 2, 16⟩, by decide⟩ { length := 2 }

/-- An analyser that is found running and then answers a status request with two
bytes. -/
def garbled : Analyser (Recorded Script) where
  geometry := twoSamples.geometry
  link := ⟨{ unit := 64, replies := [.bytes [3], .raw [2, 2]] }, []⟩

/-- What goes well on it. -/
def beforeGarbled : List Exchange :=
  (twoSamples.setUp.flatMap fun frame => pieces 64 frame.2).map (.sent · (.ok ())) ++
    statusRead 3 ++ [.sent [0x81] (.ok ())]

/-- The second status reply stops the capture. -/
theorem capture_stops_at_fault_garbled :
    let e : Exchange := .received 1 (.ok [2, 2])
    twoSamples.geometry = garbled.geometry ∧ Link.Steady 64 garbled.link.link ∧
      (after (capture 3 twoSamples) garbled).link.exchanges =
        (beforeGarbled ++ e :: []).reverse ++ garbled.link.exchanges ∧
      e.fault? = some (.shortRead 1 2) ∧
      ∃ phase done rest b,
        twoSamples.captureMoves 64 [3] = done ++ ⟨phase, e.ask⟩ :: rest ∧
        beforeGarbled.map Exchange.ask = done.map Move.ask ∧
        capture 3 twoSamples garbled = .error (.link phase (.shortRead 1 2)) b ∧
        b.stage = stageAtFault phase [3] := by
  intro e
  have steady : Link.Steady 64 garbled.link.link := Script.steady _
  have record : (after (capture 3 twoSamples) garbled).link.exchanges =
      (beforeGarbled ++ e :: []).reverse ++ garbled.link.exchanges := by decide +kernel
  have read : beforeGarbled.filterMap Exchange.statusByte? = [3] := by decide +kernel
  obtain ⟨-, -, stopped⟩ := capture_stops_at_fault rfl steady record rfl
  rw [read] at stopped
  exact ⟨rfl, steady, record, rfl, stopped⟩

end Analyser

end LogicCapture
