import LogicCapture.Proofs.Session.Faults
import LogicCapture.Proofs.Session.Reachable

/-!
# Where readings come from

Every session that may give a reading polls until the capture is done and then
reads it back, so `Concludes` says of all of them what they transferred when they
gave one. A reading is that of a program, though the handle carries nothing but the
settings of it; `Handle.InFlight` ties an armed handle to the program that it was
armed with, however many calls ago.
-/

namespace LogicCapture

/-! ## Sessions that give a reading -/

namespace Analyser

open Session

variable {σ : Type} [Link σ]

/-- The transfers that end in a reading: `sent` sets the acquisition up, the
status bytes `waiting` say that it goes on and `last` that it is done, and only
then come the `parts` of the samples. -/
structure Brings (settings : Settings) (made : List Exchange) (reading : Reading)
    (sent : List (List UInt8)) (waiting : List UInt8) (last : UInt8)
    (parts : List (List UInt8)) : Prop where
  transfers : made = sent.map (.sent · (.ok ())) ++ waiting.flatMap statusRead ++
    statusRead last ++ parts.flatMap bufferRead
  not_yet : ∀ byte ∈ waiting, byte.toNat % 8 < 4
  done : last.toNat % 8 = 4
  whole : parts.flatten.length = 2 * settings.length
  number : reading.samples.length = settings.length
  decoded : reading.samples.map UInt16.toNat = (List.range settings.length).map fun i =>
    (parts.flatten.getD (2 * i) 0).toNat + 256 * (parts.flatten.getD (2 * i + 1) 0).toNat
  rate : reading.rate = settings.rate
  preTrigger : reading.preTrigger = settings.preTrigger
  trigger_inside : reading.preTrigger ≤ reading.samples.length

/-- More frames may have been sent before. -/
theorem Brings.after_sent {settings : Settings} {made : List Exchange} {reading : Reading}
    {waiting : List UInt8} {last : UInt8} {parts : List (List UInt8)}
    (brings : Brings settings made reading [] waiting last parts) (sent : List (List UInt8)) :
    Brings settings (sent.map (.sent · (.ok ())) ++ made) reading sent waiting last parts where
  __ := brings
  transfers := by
    rw [brings.transfers, List.map_nil, List.nil_append, List.append_assoc, List.append_assoc,
      List.append_assoc]

/-- If there is a reading then the frames, each of them in pieces, and what came
after them brought it, and the analyser is idle. -/
def Concludes (frames : List (List UInt8)) (settings : Settings) (made : List Exchange)
    (reading? : Option Reading) (b : Analyser (Recorded σ)) : Prop :=
  ∀ reading, reading? = some reading → b.stage = .idle ∧ ∃ sent waiting last parts,
    List.Forall₂ (fun frame pieces => ∃ m, Cut m frame pieces) frames sent ∧
      Brings settings made reading sent.flatten waiting last parts

variable {frames : List (List UInt8)} {settings : Settings}

theorem readReading_concludes {bytes : List UInt8} (awaited : Awaited bytes true)
    (a : Analyser (Recorded σ)) : Ends (some <$> readReading settings) a
      (fun made => Concludes [] settings (bytes.flatMap statusRead ++ made))
      (fun _ _ _ => True) := by
  refine ((readReading_ends settings a).imp (fun _ _ _ good => good) fun _ _ _ _ => trivial).map ?_
  intro made reading b read reading' same
  obtain rfl := Option.some.inj same
  rcases read with ⟨idle, parts, lengths, rfl, rfl⟩
  obtain ⟨waiting, last, rfl, not_yet, done⟩ := awaited.exists_last rfl
  have whole : parts.flatten.length = 2 * settings.length := by
    rw [List.length_flatten, lengths, requestLengths, sum_pieceLengths]
  have number : (Wire.samples parts.flatten).length = settings.length := Wire.length_samples whole
  refine ⟨idle, [], waiting, last, parts, .nil, ?_, not_yet, done, whole, number,
    Wire.map_toNat_samples whole, rfl, rfl, ?_⟩
  · rw [List.flatMap_append, List.flatMap_singleton]
    rfl
  · exact number.symm ▸ settings.preTrigger_le

theorem tryResult_concludes (settings : Settings) (a : Analyser (Recorded σ)) :
    Ends (tryResult settings) a (Concludes [] settings) (fun _ _ _ => True) := by
  refine (poll_ends a).bind (fun _ _ _ _ => trivial) ?_
  intro made status b _ polled
  rcases polled with ⟨byte, legal, rfl, -⟩
  split
  · next done =>
    have awaited : Awaited [byte] true := .found (done ▸ legal)
    exact readReading_concludes awaited b
  · exact .pure nofun

/-- Reads the capture back if it was found done. -/
def readIfDone (settings : Settings) (found : Bool) : Session σ (Option Reading) :=
  if found then some <$> readReading settings else return none

theorem readIfDone_concludes {polling : Session (Recorded σ) Bool} {a : Analyser (Recorded σ)}
    (polls : Ends polling a
      (fun made found _ => ∃ bytes, Awaited bytes found ∧ made = bytes.flatMap statusRead)
      fun _ _ _ => True) :
    Ends (polling >>= readIfDone settings) a (Concludes [] settings) (fun _ _ _ => True) := by
  refine polls.bind (fun _ _ _ _ => trivial) ?_
  intro made found b _ polled
  rcases polled with ⟨bytes, awaited, rfl⟩
  cases found with
  | false => exact .pure nofun
  | true => exact readReading_concludes awaited b

theorem wait_concludes (limit : Nat) (settings : Settings) (a : Analyser (Recorded σ)) :
    Ends (wait limit settings) a (Concludes [] settings) (fun _ _ _ => True) := by
  refine readIfDone_concludes ((pollUntilDone_ends limit none a).imp ?_ fun _ _ _ _ => trivial)
  exact fun _ _ _ ⟨bytes, awaited, made, _⟩ => ⟨bytes, awaited, made⟩

theorem waitTimeout_concludes (elapsed : Nat → Nat) (timeout limit : Nat) (settings : Settings)
    (a : Analyser (Recorded σ)) : Ends (waitTimeout elapsed timeout limit settings) a
      (Concludes [] settings) (fun _ _ _ => True) :=
  readIfDone_concludes (pollInTime_ends elapsed timeout limit 0 a)

theorem capture_concludes (limit : Nat) (p : Program) (a : Analyser (Recorded σ)) :
    Ends (capture limit p) a (Concludes p.setUpFrames p.settings) (fun _ _ _ => True) := by
  rcases em (p.geometry = a.geometry) with same | other
  · obtain ⟨cuts, cutBy, started⟩ := start_delivers same
    obtain ⟨sent, sent_cut, asks⟩ := exists_pieces_of_cutBy cutBy
    have cut : List.Forall₂ (fun frame pieces => ∃ m, Cut m frame pieces) p.setUpFrames sent := by
      refine sent_cut.imp fun frame parts part => ?_
      obtain ⟨t, -, rfl⟩ := part
      exact ⟨_, cut_pieces _ frame⟩
    refine started.bind (fun _ _ _ _ => trivial) ?_
    intro made _ b _ went
    rcases went with ⟨-, follows⟩
    obtain rfl := follows.eq_sent asks
    refine (wait_concludes limit p.settings b).imp ?_ fun _ _ _ _ => trivial
    intro more reading? c concludes reading some_reading
    -- nothing was sent while waiting, so what was sent is what the start sent
    obtain ⟨idle, none_sent, waiting, last, parts, no_frames, brings⟩ :=
      concludes reading some_reading
    cases no_frames
    exact ⟨idle, sent, waiting, last, parts, cut, brings.after_sent _⟩
  · exact .of_error (bind_of_error (start_of_mismatch other)) (.nil rfl) trivial

end Analyser

/-! ## Acquisitions in flight -/

/-- The frames that a call sends before it waits for the capture. -/
def Call.setUpFrames : Call → List (List UInt8)
  | .idle (.capture p) => p.setUpFrames
  | _ => []

namespace Handle

open Session Analyser

variable {σ : Type}

/-- If the handle stands for an acquisition then for one with these settings. -/
def Carries (settings : Settings) : Handle σ → Prop
  | armed _ carried => carried = settings
  | idle _ | lost _ => True

theorem carries_conclude (settings : Settings) (reading? : Option Reading) (a : Analyser σ) :
    Carries settings (conclude settings reading? a).2 := by
  cases reading? with
  | none => rfl
  | some reading => trivial

variable [Link σ] {link : σ}

/-- The handle stands for an acquisition that was started with the program. -/
inductive InFlight (link : σ) (p : Program) : Handle (Recorded σ) → Prop
  | arm {h armed : Handle (Recorded σ)} (horizon : Horizon) : Reachable link h →
    perform horizon h (.idle (.arm p)) = (.ok .armed, armed) → InFlight link p armed
  | call {h : Handle (Recorded σ)} {a : Analyser (Recorded σ)} {settings : Settings}
    (horizon : Horizon) (call : Call) : InFlight link p h →
      (perform horizon h call).2 = .armed a settings → InFlight link p (.armed a settings)

/-- The call is one that may end an acquisition that was started with the
program. -/
inductive Acquires (link : σ) (p : Program) : Handle (Recorded σ) → Call → Prop
  | capture {h : Handle (Recorded σ)} : Reachable link h → Acquires link p h (.idle (.capture p))
  | armed {h : Handle (Recorded σ)} (call : ArmedCall) : InFlight link p h →
    Acquires link p h (.armed call)

theorem carries_performArmed (horizon : Horizon) (a : Analyser σ) (settings : Settings)
    (call : ArmedCall) : Carries settings (performArmed horizon a settings call).2 := by
  cases call with
  | poll => exact settle_induction (fun _ _ => rfl) fun _ => rfl
  | tryResult => exact settle_induction (carries_conclude settings) fun _ => trivial
  | wait => exact settle_induction (carries_conclude settings) fun _ => trivial
  | waitTimeout timeout => exact settle_induction (carries_conclude settings) fun _ => rfl
  | cancel => exact settle_induction (fun _ _ => trivial) fun _ => trivial

/-- Only an idle handle that was told to arm becomes an armed one. -/
theorem arm_of_performIdle {horizon : Horizon} {a b : Analyser σ} {settings : Settings}
    {call : IdleCall} (armed : (performIdle horizon a call).2 = .armed b settings) :
    ∃ p, call = .arm p ∧ (performIdle horizon a call).1 = .ok .armed := by
  cases run : idleSession horizon call a with
  | ok answer c =>
    rw [performIdle, settle_of_ok run] at armed ⊢
    cases call with
    | arm p =>
      obtain ⟨-, d, -, last⟩ := ok_of_seqRight run
      cases last
      exact ⟨p, rfl, rfl⟩
    | _ => cases armed
  | error error c =>
    rw [performIdle, settle_of_error run] at armed
    cases armed

theorem InFlight.eq_armed {p : Program} {h : Handle (Recorded σ)} (flight : InFlight link p h) :
    ∃ a, h = .armed a p.settings := by
  induction flight with
  | @arm h armed horizon _ answered =>
    cases h with
    | idle a =>
      cases run : idleSession horizon (.arm p) a with
      | ok answer b =>
        rw [perform, performIdle, settle_of_ok run] at answered
        exact ⟨b, (Prod.mk.inj answered).2.symm⟩
      | error error b =>
        rw [perform, performIdle, settle_of_error run] at answered
        cases answered
    | armed | lost => cases answered
  | @call h a settings horizon call _ armed ih =>
    obtain ⟨b, rfl⟩ := ih
    cases call with
    | idle call =>
      cases armed
      exact ⟨a, rfl⟩
    | armed call =>
      have carries := carries_performArmed horizon b p.settings call
      change (performArmed horizon b p.settings call).2 = _ at armed
      rw [armed] at carries
      exact ⟨a, carries ▸ rfl⟩

/-- An acquisition in flight was started with some program. -/
theorem Reachable.inFlight {h : Handle (Recorded σ)} (reachable : Reachable link h)
    {a : Analyser (Recorded σ)} {settings : Settings} (armed : h = .armed a settings) :
    ∃ p, InFlight link p h := by
  induction reachable generalizing a settings with
  | fresh | probed | unprobed => cases armed
  | @call h horizon call before ih =>
    cases h with
    | idle b =>
      cases call with
      | idle call =>
        obtain ⟨p, rfl, answer⟩ := arm_of_performIdle armed
        exact ⟨p, .arm horizon before (Prod.ext answer rfl)⟩
      | armed call => cases armed
    | armed b settings' =>
      obtain ⟨p, flight⟩ := ih rfl
      rw [armed]
      exact ⟨p, .call horizon call flight armed⟩
    | lost b => cases call <;> cases armed

/-- Only one of the idle calls gives a reading. -/
theorem capture_of_idleSession {horizon : Horizon} {call : IdleCall} {a b : Analyser σ}
    {reading : Reading} (run : idleSession horizon call a = .ok (.reading reading) b) :
    ∃ p, call = .capture p ∧ capture horizon.polls p a = .ok (some reading) b := by
  cases call with
  | capture p =>
    obtain ⟨reading?, c, captured, last⟩ := ok_of_bind run
    cases reading? with
    | none => cases last
    | some reading' =>
      cases last
      exact ⟨p, rfl, captured⟩
  | version | geometry => cases run
  | transferUnit | readStatus | readVersion | tryReadVersion | readGeometry | readSamples =>
    obtain ⟨_, _, answer⟩ := ok_of_map run
    cases answer
  | pollUntilDone =>
    obtain ⟨found, c, _, last⟩ := ok_of_bind run
    cases found <;> cases last
  | compileAndLoad | loadProgram | writeLength | writePreTrigger | writeControl | start | renew
    | arm =>
    obtain ⟨-, c, -, last⟩ := ok_of_seqRight run
    cases last

theorem reading_of_settle {session : Session (Recorded σ) (Option Reading)}
    {a : Analyser (Recorded σ)} {h : Handle (Recorded σ)} {frames : List (List UInt8)}
    {settings : Settings} {failure : Analyser (Recorded σ) → Handle (Recorded σ)}
    {reading : Reading} (ends : Ends session a (Concludes frames settings) fun _ _ _ => True)
    (answered : settle a session (conclude settings) failure = (.ok (.reading reading), h)) :
    ∃ b made, h = .idle b ∧ Extends a b made ∧
      Concludes frames settings made (some reading) b := by
  cases run : session a with
  | ok reading? b =>
    rw [settle_of_ok run] at answered
    cases reading? with
    | none => cases answered
    | some reading' =>
      cases answered
      obtain ⟨made, extended, concludes⟩ := ends.ok run
      exact ⟨b, made, rfl, extended, concludes⟩
  | error error b =>
    rw [settle_of_error run] at answered
    cases answered

/-- A call that gives a reading concludes its acquisition. -/
theorem concludes_of_perform {h h' : Handle (Recorded σ)} {horizon : Horizon} {call : Call}
    {p : Program} {reading : Reading} (acquires : Acquires link p h call)
    (answered : perform horizon h call = (.ok (.reading reading), h')) :
    ∃ b made, h' = .idle b ∧ Extends h.analyser b made ∧
      Concludes call.setUpFrames p.settings made (some reading) b := by
  cases acquires with
  | capture _ =>
    cases h with
    | idle a =>
      cases run : idleSession horizon (.capture p) a with
      | ok answer b =>
        rw [perform, performIdle, settle_of_ok run] at answered
        cases answered
        obtain ⟨_, same, captured⟩ := capture_of_idleSession run
        cases same
        obtain ⟨made, extended, concludes⟩ := (capture_concludes horizon.polls p a).ok captured
        exact ⟨b, made, rfl, extended, concludes⟩
      | error error b =>
        rw [perform, performIdle, settle_of_error run] at answered
        cases answered
    | armed | lost => cases answered
  | armed call flight =>
    obtain ⟨a, rfl⟩ := flight.eq_armed
    cases call with
    | tryResult => exact reading_of_settle (tryResult_concludes p.settings a) answered
    | wait => exact reading_of_settle (wait_concludes horizon.polls p.settings a) answered
    | waitTimeout timeout =>
      exact reading_of_settle
        (waitTimeout_concludes horizon.elapsed timeout horizon.polls p.settings a) answered
    | poll =>
      cases run : Analyser.poll a with
      | ok status b =>
        rw [perform, performArmed, settle_of_ok run] at answered
        cases answered
      | error error b =>
        rw [perform, performArmed, settle_of_error run] at answered
        cases answered
    | cancel =>
      cases run : Analyser.cancel a with
      | ok value b =>
        rw [perform, performArmed, settle_of_ok run] at answered
        cases answered
      | error error b =>
        rw [perform, performArmed, settle_of_error run] at answered
        cases answered

/-- A reading is given only when the capture is done, and it is the right one.
The call that gives it ends an acquisition that was started with some program, and
made these transfers and no others: what sets the acquisition up if it is a whole
capture, status requests until one says that the capture is done, then the
requests for the samples. The reading holds as many samples as the program asks
for, decoded from the replies to these requests alone. -/
theorem reading_brought {h h' : Handle (Recorded σ)} {horizon : Horizon} {call : Call}
    {reading : Reading} (reachable : Reachable link h)
    (answered : perform horizon h call = (.ok (.reading reading), h')) :
    (∃ p, Acquires link p h call) ∧ ∀ p, Acquires link p h call →
      ∃ b made sent waiting last parts, h' = .idle b ∧ b.stage = .idle ∧
        record h' = made.reverse ++ record h ∧
        List.Forall₂ (fun frame pieces => ∃ m, Cut m frame pieces) call.setUpFrames sent ∧
        Brings p.settings made reading sent.flatten waiting last parts := by
  refine ⟨?_, fun p acquires => ?_⟩
  · cases call with
    | idle call =>
      cases h with
      | idle a =>
        cases run : idleSession horizon call a with
        | ok answer b =>
          rw [perform, performIdle, settle_of_ok run] at answered
          have same : answer = .reading reading := by
            cases call <;> exact Except.ok.inj (Prod.mk.inj answered).1
          subst same
          obtain ⟨p, rfl, -⟩ := capture_of_idleSession run
          exact ⟨p, .capture reachable⟩
        | error error b =>
          rw [perform, performIdle, settle_of_error run] at answered
          cases answered
      | armed | lost => cases answered
    | armed call =>
      cases h with
      | armed a settings =>
        obtain ⟨p, flight⟩ := reachable.inFlight rfl
        exact ⟨p, .armed call flight⟩
      | idle | lost => cases answered
  · obtain ⟨b, made, rfl, extended, concludes⟩ := concludes_of_perform acquires answered
    obtain ⟨idle, sent, waiting, last, parts, pieces, brings⟩ := concludes reading rfl
    exact ⟨b, made, sent, waiting, last, parts, rfl, idle, extended.exchanges, pieces, brings⟩

/-- The settings of the acquisition that is under way. -/
def settings? : Handle σ → Option Settings
  | armed _ settings => some settings
  | idle _ | lost _ => none

omit [Link σ] in
theorem eq_armed_of_settings {h : Handle σ} {settings : Settings}
    (known : h.settings? = some settings) : h = .armed h.analyser settings := by
  cases h with
  | armed a own =>
    cases known
    rfl
  | idle | lost => cases known

/-- An analyser that fails in the middle of reading back, and then does not. -/
def faltering : Script where
  unit := 3
  replies := [.bytes [7], .bytes [0xA5, 0x5E, 0x12, 0x34, 2, 1, 2, 16],
    .bytes [4], .bytes [0x11, 0x11], .fails (.timeout 0),
    .bytes [4], .bytes [0x34, 0x12], .bytes [0xCD, 0xAB]]

/-- Looks once, and at once. -/
def glance : Horizon := ⟨fun _ => 0, 1⟩

/-- An acquisition on it, just started. -/
def falteringArmed : Handle (Recorded Script) :=
  (perform glance (.idle (after probe (wrapped faltering))) (.idle (.arm twoSamples))).2

/-- The same after a first attempt. -/
def faltered : Handle (Recorded Script) :=
  (perform glance falteringArmed (.armed (.waitTimeout 1))).2

/-- The second attempt gives what it read itself. -/
theorem reading_brought_retry :
    ∃ h', Reachable faltering faltered ∧
      perform glance faltered (.armed (.waitTimeout 1)) =
        (.ok (.reading ⟨[0x1234, 0xABCD], .full, 0⟩), h') ∧
      Acquires faltering twoSamples faltered (.armed (.waitTimeout 1)) ∧
      ∃ made waiting last parts, record h' = made.reverse ++ record faltered ∧
        Brings twoSamples.settings made ⟨[0x1234, 0xABCD], .full, 0⟩ [] waiting last parts := by
  have probed : Reachable faltering (.idle (after probe (wrapped faltering))) :=
    .probed (by with_unfolding_all rfl)
  have armed : InFlight faltering twoSamples falteringArmed :=
    .arm glance probed (Prod.ext (by decide +kernel) rfl)
  have still : faltered = .armed faltered.analyser twoSamples.settings :=
    eq_armed_of_settings (by decide +kernel)
  have acquires : Acquires faltering twoSamples faltered (.armed (.waitTimeout 1)) :=
    .armed _ (still ▸ .call glance (.armed (.waitTimeout 1)) armed still)
  have reachable : Reachable faltering faltered := .call _ _ (.call _ _ probed)
  have answered : perform glance faltered (.armed (.waitTimeout 1)) =
      (.ok (.reading ⟨[0x1234, 0xABCD], .full, 0⟩), _) := Prod.ext (by decide +kernel) rfl
  obtain ⟨b, made, sent, waiting, last, parts, -, -, extended, no_frames, brings⟩ :=
    (reading_brought reachable answered).2 twoSamples acquires
  cases no_frames
  exact ⟨_, reachable, answered, acquires, made, waiting, last, parts, extended, brings⟩

end Handle

end LogicCapture
