import LogicCapture.Proofs.Session.Invariants
import LogicCapture.Proofs.Session.Readings

/-!
# Stages of a session

An armed handle stands for an acquisition that is under way, and whoever gets an
idle handle back from it, or from a start that failed, finds the analyser idle.
Between two changes the stage is the one that the last poll told, and the log has a
line for every change, so that its lines lead from the idle stage to the one that
the analyser is in.
-/

namespace LogicCapture

/-- An acquisition was started and has not come to its end. -/
def Stage.UnderWay : Stage → Prop
  | armed | running | done | readingBack => True
  | idle | configuring => False

/-! ## The log of changes -/

/-- The changes of stage that the lines tell of, newest line first, lead from one
stage to another one by one. -/
inductive Stage.Leads (first : Stage) : List LogLine → Stage → Prop
  | here : Leads first [] first
  | moved {lines : List LogLine} {before after : Stage} : Leads first lines before →
    before ≠ after → Leads first (.stageChanged before after :: lines) after
  | other {line : LogLine} {lines : List LogLine} {stage : Stage} : ¬ line.IsMove →
    Leads first lines stage → Leads first (line :: lines) stage

theorem Stage.Leads.others {first stage : Stage} {lines more : List LogLine}
    (leads : Leads first lines stage) (plain : ∀ line ∈ more, ¬ line.IsMove) :
    Leads first (more ++ lines) stage := by
  induction more with
  | nil => exact leads
  | cons line rest ih =>
    have rest_plain := fun other mem => plain other (List.mem_cons_of_mem line mem)
    exact .other (plain line List.mem_cons_self) (ih rest_plain)

namespace Analyser

open Session

variable {σ : Type}

/-- Since the log was `log` its lines lead from `first` to the stage. -/
def Traced (first : Stage) (log : List LogLine) (a : Analyser σ) : Prop :=
  ∃ lines, a.log = lines ++ log ∧ first.Leads lines a.stage

variable [Link σ] {a b : Analyser σ}

theorem sessionInvariant_traced (first : Stage) (log : List LogLine) :
    SessionInvariant (Traced first log : Analyser σ → Prop) := by
  refine .of_during (fun phase transfer a traced => ?_) (fun line plain a traced => ?_)
    fun stage a traced => ?_
  · obtain ⟨lines, written, leads⟩ := traced
    rw [after_during]
    refine ⟨_, (congrArg _ written).trans (List.append_assoc _ _ _).symm, leads.others ?_⟩
    intro line mem
    obtain ⟨bytes, -, rfl⟩ := List.mem_map.1 (List.mem_reverse.1 mem)
    exact id
  · obtain ⟨lines, written, leads⟩ := traced
    exact ⟨line :: lines, congrArg (line :: ·) written, .other plain leads⟩
  · obtain ⟨lines, written, leads⟩ := traced
    rw [after_enter]
    split
    · exact ⟨lines, written, leads⟩
    · next other =>
      exact ⟨.stageChanged a.stage stage :: lines, congrArg (_ :: ·) written,
        .moved leads other⟩

/-- What is known of the analyser at the start of a session stays so. -/
theorem sessionInvariant_known (version : Option UInt8) (geometry : Geometry) :
    SessionInvariant fun a : Analyser σ => a.version = version ∧ a.geometry = geometry := by
  refine .of_during (fun phase transfer a known => ?_) (fun line _ a known => known)
    fun stage a known => ?_
  · rw [after_during]
    exact known
  · rw [after_enter]
    split
    · exact known
    · exact known

/-! ## Sessions that leave the stage alone -/

omit [Link σ] in
theorem keeps_stage_during {α : Type} (stage : Stage) (phase : Phase)
    (transfer : σ → Transfer σ α) : Keeps (·.stage = stage) (during phase transfer) := by
  intro a there
  rw [after_during]
  exact there

/-- Lines of the log, frames and requests do not change the stage. -/
theorem transferInvariant_stage (stage : Stage) :
    TransferInvariant fun a : Analyser σ => a.stage = stage :=
  .of_during (keeps_stage_during stage) fun _ _ _ there => there

/-! ## Polls -/

theorem poll_ok {status : Status} (run : poll a = .ok status b) :
    b.stage = (stageOf? status).getD a.stage := by
  obtain ⟨said, c, read, last⟩ := ok_of_bind run
  have stays := (transferInvariant_stage a.stage).readStatus a rfl
  rw [after_of_ok read] at stays
  split at last
  · next stage stands =>
    obtain ⟨d, entered, -, there⟩ := enter_run stage c
    rw [bind_of_ok entered] at last
    cases last
    rw [stands, there]
    rfl
  · next says_nothing =>
    cases last
    rw [says_nothing, stays]
    rfl

theorem poll_error {error : AnalyserError} (run : poll a = .error error b) :
    b.stage = a.stage := by
  have stays := (transferInvariant_stage a.stage).readStatus a rfl
  rcases error_of_bind run with failed | ⟨said, c, -, last⟩
  · rwa [after_of_error failed] at stays
  · split at last
    · next stage _ =>
      obtain ⟨d, entered, -, -⟩ := enter_run stage c
      rw [bind_of_ok entered] at last
      cases last
    · cases last

theorem underWay_of_stageOf? {status : Status} {stage : Stage}
    (stands : stageOf? status = some stage) : stage.UnderWay := by
  cases status with
  | idle => cases stands
  | pretrigger | armed | run | done =>
    cases stands
    trivial

/-- A poll does not end an acquisition. -/
theorem keeps_underWay_poll : Keeps (fun a : Analyser σ => a.stage.UnderWay) poll := by
  intro a underWay
  cases run : poll a with
  | ok status b =>
    rw [after_of_ok run, poll_ok run]
    cases stands : stageOf? status with
    | none => exact underWay
    | some stage => exact underWay_of_stageOf? stands
  | error error b => rwa [after_of_error run, poll_error run]

/-! ## Starting and arming -/

theorem stage_of_start {p : Program} (run : start p a = .ok () b) : b.stage = .armed := by
  obtain ⟨_, _, -, run⟩ := ok_of_bind run
  obtain ⟨_, _, -, run⟩ := ok_of_bind run
  obtain ⟨_, _, -, run⟩ := ok_of_bind run
  obtain ⟨_, _, -, run⟩ := ok_of_bind run
  obtain ⟨_, _, -, run⟩ := ok_of_bind run
  obtain ⟨_, c, -, run⟩ := ok_of_bind run
  obtain ⟨d, entered, -, there⟩ := enter_run .armed c
  cases run.symm.trans entered
  exact there

theorem stage_of_arm {p : Program} (run : arm p a = .ok () b) : b.stage = .armed := by
  cases started : start p a with
  | ok value c =>
    cases (tryCatch_of_ok started).symm.trans run
    exact stage_of_start started
  | error error c =>
    obtain ⟨d, entered, -, -⟩ := enter_run .idle c
    have failed : arm p a = .error error d :=
      (tryCatch_of_error started).trans (bind_of_ok entered)
    cases failed.symm.trans run

theorem stage_of_arm_error {p : Program} {error : AnalyserError}
    (run : arm p a = .error error b) : b.stage = .idle := by
  cases started : start p a with
  | ok value c => cases (tryCatch_of_ok started).symm.trans run
  | error error c =>
    obtain ⟨d, entered, -, there⟩ := enter_run .idle c
    have failed : arm p a = .error error d :=
      (tryCatch_of_error started).trans (bind_of_ok entered)
    cases failed.symm.trans run
    exact there

/-! ## Reading back -/

theorem stage_of_readSamples {count : Nat} {samples : List UInt16}
    (run : readSamples count a = .ok samples b) : b.stage = .idle := by
  rcases Nat.lt_or_ge (Link.unit a.link) 2 with small | carries
  · cases (readSamples_of_small small).symm.trans run
  · rw [readSamples_of_carries carries] at run
    obtain ⟨_, _, -, run⟩ := ok_of_bind run
    obtain ⟨samples, _, -, run⟩ := ok_of_bind run
    obtain ⟨_, c, -, run⟩ := ok_of_bind run
    obtain ⟨d, entered, -, there⟩ := enter_run .idle c
    rw [bind_of_ok entered] at run
    cases run
    exact there

/-- Reading back that failed has not begun, or it stopped in the middle. -/
theorem stage_of_readSamples_error {count : Nat} {error : AnalyserError}
    (run : readSamples count a = .error error b) :
    b.stage = a.stage ∨ b.stage = .readingBack := by
  rcases Nat.lt_or_ge (Link.unit a.link) 2 with small | carries
  · cases (readSamples_of_small small).symm.trans run
    exact .inl rfl
  · obtain ⟨c, entered, -, there⟩ := enter_run .readingBack a
    rw [readSamples_of_carries carries, bind_of_ok entered] at run
    have stays : Keeps (·.stage = .readingBack) (requestSamples (min (Link.unit a.link / 2) 0x7FFF)
        (by omega) count : Session σ (List UInt16)) :=
      keeps_requestSamples (keeps_stage_during .readingBack) _ _
    rcases error_of_bind run with failed | ⟨samples, d, -, last⟩
    · have stage := stays c there
      rw [after_of_error failed] at stage
      exact .inr stage
    · obtain ⟨e, entered, -, -⟩ := enter_run .idle
        { d with log := .readBack samples.length :: d.log }
      have finished := bind_of_ok (x := enter .idle) (f := fun _ => pure samples) entered
      cases finished.symm.trans last

/-! ## Ending an acquisition -/

/-- From an acquisition under way the session either ends it with a reading, so that
the analyser is idle, or leaves it under way. -/
def EndsOrWaits (x : Session σ (Option Reading)) : Prop :=
  ∀ a, a.stage.UnderWay → match x a with
    | .ok (some _) b => b.stage = .idle
    | .ok none b | .error _ b => b.stage.UnderWay

omit [Link σ] in
theorem EndsOrWaits.pure : EndsOrWaits (Pure.pure none : Session σ (Option Reading)) :=
  fun _ underWay => underWay

omit [Link σ] in
theorem EndsOrWaits.bind {α : Type} {x : Session σ α} {f : α → Session σ (Option Reading)}
    (first : Keeps (·.stage.UnderWay) x) (rest : ∀ value, EndsOrWaits (f value)) :
    EndsOrWaits (x >>= f) := by
  intro a underWay
  have between := first a underWay
  cases run : x a with
  | ok value b =>
    rw [after_of_ok run] at between
    rw [bind_of_ok run]
    exact rest value b between
  | error error b =>
    rw [after_of_error run] at between
    rwa [bind_of_error run]

theorem endsOrWaits_readReading (settings : Settings) :
    EndsOrWaits (some <$> readReading settings : Session σ (Option Reading)) := by
  intro a underWay
  cases run : readSamples settings.length a with
  | ok samples b =>
    have reading : readReading settings a = .ok (.ofSettings samples settings) b := bind_of_ok run
    rw [map_of_ok reading]
    exact stage_of_readSamples run
  | error error b =>
    have failed : readReading settings a = .error error b := bind_of_error run
    rw [map_of_error failed]
    change b.stage.UnderWay
    rcases stage_of_readSamples_error run with same | half_way
    · rwa [same]
    · rw [half_way]
      trivial

theorem endsOrWaits_readIfDone (settings : Settings) (found : Bool) :
    EndsOrWaits (readIfDone settings found : Session σ (Option Reading)) := by
  cases found with
  | true => exact endsOrWaits_readReading settings
  | false => exact .pure

theorem endsOrWaits_tryResult (settings : Settings) :
    EndsOrWaits (tryResult settings : Session σ (Option Reading)) := by
  refine .bind keeps_underWay_poll fun status => ?_
  split
  · exact endsOrWaits_readReading settings
  · exact .pure

theorem endsOrWaits_wait (limit : Nat) (settings : Settings) :
    EndsOrWaits (wait limit settings : Session σ (Option Reading)) :=
  .bind (keeps_pollUntilDone keeps_underWay_poll (fun _ _ underWay => underWay) limit none)
    (endsOrWaits_readIfDone settings)

theorem endsOrWaits_waitTimeout (elapsed : Nat → Nat) (timeout limit : Nat) (settings : Settings) :
    EndsOrWaits (waitTimeout elapsed timeout limit settings : Session σ (Option Reading)) :=
  .bind (keeps_pollInTime keeps_underWay_poll elapsed timeout limit 0)
    (endsOrWaits_readIfDone settings)

theorem stage_of_cancel (run : cancel a = .ok () b) : b.stage = .idle := by
  obtain ⟨_, c, -, run⟩ := ok_of_bind run
  obtain ⟨d, entered, -, there⟩ := enter_run .idle c
  rw [bind_of_ok entered] at run
  cases run
  exact there

end Analyser

/-! ## Handles -/

/-- The call asks a question or writes a register, and no more. -/
def IdleCall.LeavesStage : IdleCall → Prop
  | version | geometry | transferUnit | writeLength _ | writePreTrigger _ | writeControl _
  | readStatus | readVersion | tryReadVersion | readGeometry => True
  | compileAndLoad _ | loadProgram _ | start _ | pollUntilDone | readSamples _ | capture _
  | renew | arm _ => False

namespace Handle

open Session Analyser

variable {σ : Type}

/-- An armed handle stands for an acquisition under way. -/
def Sound : Handle σ → Prop
  | armed a _ => a.stage.UnderWay
  | idle _ | lost _ => True

/-- Moreover an idle one has an idle analyser. -/
def Settled : Handle σ → Prop
  | idle a => a.stage = .idle
  | armed a _ => a.stage.UnderWay
  | lost _ => True

theorem Settled.sound {h : Handle σ} (settled : h.Settled) : h.Sound := by
  cases h with
  | idle | lost => trivial
  | armed => exact settled

theorem settled_settle {session : Session σ (Option Reading)} (ends : EndsOrWaits session)
    {a : Analyser σ} (underWay : a.stage.UnderWay) (settings : Settings)
    {failure : Analyser σ → Handle σ} (failed : ∀ b, b.stage.UnderWay → (failure b).Settled) :
    (settle a session (conclude settings) failure).2.Settled := by
  have after := ends a underWay
  cases run : session a with
  | ok reading? b =>
    rw [run] at after
    rw [settle_of_ok run]
    cases reading? with
    | none => exact after
    | some reading => exact after
  | error error b =>
    rw [run] at after
    rw [settle_of_error run]
    exact failed b after

variable [Link σ]

/-- What an armed handle is asked for leaves a settled one. -/
theorem settled_performArmed (horizon : Horizon) {a : Analyser σ} (underWay : a.stage.UnderWay)
    (settings : Settings) (call : ArmedCall) :
    (performArmed horizon a settings call).2.Settled := by
  cases call with
  | poll =>
    have polled := keeps_underWay_poll a underWay
    cases run : Analyser.poll a with
    | ok status b =>
      rw [after_of_ok run] at polled
      rw [performArmed, settle_of_ok run]
      exact polled
    | error error b =>
      rw [after_of_error run] at polled
      rw [performArmed, settle_of_error run]
      exact polled
  | tryResult =>
    exact settled_settle (endsOrWaits_tryResult settings) underWay settings fun _ _ => trivial
  | wait =>
    exact settled_settle (endsOrWaits_wait _ settings) underWay settings fun _ _ => trivial
  | waitTimeout timeout =>
    exact settled_settle (endsOrWaits_waitTimeout _ timeout _ settings) underWay settings
      fun _ stays => stays
  | cancel =>
    cases run : Analyser.cancel a with
    | ok value b =>
      rw [performArmed, settle_of_ok run]
      exact stage_of_cancel run
    | error error b =>
      rw [performArmed, settle_of_error run]
      trivial

/-- So does a call to arm. -/
theorem settled_arm (horizon : Horizon) (a : Analyser σ) (p : Program) :
    (performIdle horizon a (.arm p)).2.Settled := by
  cases run : Analyser.arm p a with
  | ok value b =>
    have ended : idleSession horizon (.arm p) a = .ok .armed b := by
      rw [idleSession, seqRight_eq_bind, bind_of_ok run]
      rfl
    rw [performIdle, settle_of_ok ended]
    change b.stage.UnderWay
    rw [stage_of_arm run]
    trivial
  | error error b =>
    have failed : idleSession horizon (.arm p) a = .error error b := by
      rw [idleSession, seqRight_eq_bind, bind_of_error run]
    rw [performIdle, settle_of_error failed]
    exact stage_of_arm_error run

theorem sound_perform (horizon : Horizon) {h : Handle σ} (sound : h.Sound) (call : Call) :
    (perform horizon h call).2.Sound := by
  cases h with
  | idle a =>
    cases call with
    | idle call =>
      cases call with
      | arm p => exact (settled_arm horizon a p).sound
      | _ => exact settle_induction (fun _ _ => trivial) fun _ => trivial
    | armed call => trivial
  | armed a settings =>
    cases call with
    | idle call => exact sound
    | armed call => exact (settled_performArmed horizon sound settings call).sound
  | lost a => cases call <;> trivial

theorem keeps_stage_idleSession (horizon : Horizon) {call : IdleCall} (leaves : call.LeavesStage)
    (stage : Stage) : Keeps (·.stage = stage) (idleSession horizon call : Session σ Answer) := by
  have invariant : TransferInvariant fun a : Analyser σ => a.stage = stage :=
    transferInvariant_stage stage
  cases call with
  | version | geometry => exact .get_bind fun _ there => there
  | transferUnit => exact Keeps.map fun _ there => there
  | writeLength count => exact (invariant.writeCount _ _ count).seqRight (.pure _)
  | writePreTrigger count => exact (invariant.writeCount _ _ count).seqRight (.pure _)
  | writeControl control => exact (invariant.writeControl control).seqRight (.pure _)
  | readStatus => exact invariant.readStatus.map
  | readVersion => exact (invariant.requestByte _ _).map
  | tryReadVersion => exact invariant.tryReadVersion.map
  | readGeometry => exact invariant.readGeometry.map
  | compileAndLoad | loadProgram | start | pollUntilDone | readSamples | capture | renew
    | arm => exact leaves.elim

/-! ## Sessions -/

/-- The analyser as a session begins: its link was just wrapped, or was also probed.
The log may have lines from before. -/
inductive Begun (link : σ) (log : List LogLine) : Analyser σ → Prop
  | fresh : Begun link log { link, log }
  | probed {a : Analyser σ} : Analyser.probe { link, log } = .ok () a → Begun link log a

/-- Handles that calls in any order make of the idle one with which a session
begins. To start over is to begin another session. -/
inductive Since (begun : Analyser σ) : Handle σ → Prop
  | start : Since begun (idle begun)
  | call {h : Handle σ} (horizon : Horizon) {call : Call} : Since begun h →
    call ≠ .idle .renew → Since begun (perform horizon h call).2

theorem Since.sound {begun : Analyser σ} {h : Handle σ} (since : Since begun h) : h.Sound := by
  induction since with
  | start => trivial
  | call horizon _ _ ih => exact sound_perform horizon ih _

theorem Since.invariant {begun : Analyser σ} {inv : Analyser σ → Prop}
    (invariant : SessionInvariant inv) (start : inv begun) {h : Handle σ}
    (since : Since begun h) : inv h.analyser := by
  induction since with
  | start => exact start
  | call horizon _ goes_on ih => exact invariant.perform horizon ih goes_on

theorem Begun.traced {link : σ} {log : List LogLine} {a : Analyser σ} (begun : Begun link log a) :
    Traced .idle log a := by
  have fresh : Traced .idle log ({ link, log } : Analyser σ) := ⟨[], rfl, .here⟩
  cases begun with
  | fresh => exact fresh
  | probed run =>
    have invariant : SessionInvariant (Traced .idle log : Analyser σ → Prop) :=
      sessionInvariant_traced .idle log
    have probed := invariant.probe (fun _ _ traced => traced) (fun _ _ traced => traced) _ fresh
    rwa [after_of_ok run] at probed

/-- The stage through a session. An armed handle stands for an acquisition under
way. An idle handle that an armed one or a start that failed gives back is in the
idle stage. A poll sets the stage that its status stands for, and leaves it alone if
it fails or if the analyser says that it is idle; questions and registers leave it
alone. The version and the geometry stay those of the beginning, and the log leads
from the idle stage to that of the handle, change by change. -/
theorem stages_of_session {link : σ} {log : List LogLine} {begun : Analyser σ} {h : Handle σ}
    (start : Begun link log begun) (since : Since begun h) :
    (∀ a settings, h = armed a settings →
      a.stage = .armed ∨ a.stage = .running ∨ a.stage = .done ∨ a.stage = .readingBack) ∧
    (∀ horizon a settings call b, h = armed a settings →
      (perform horizon h (.armed call)).2 = idle b → b.stage = .idle) ∧
    (∀ horizon p refusal b,
      perform horizon h (.idle (.arm p)) = (.error refusal, idle b) → b.stage = .idle) ∧
    (∀ a b : Analyser σ,
      (∀ status, Analyser.poll a = .ok status b → b.stage = match status with
        | .pretrigger | .armed => .armed
        | .run => .running
        | .done => .done
        | .idle => a.stage) ∧
      ∀ error, Analyser.poll a = .error error b → b.stage = a.stage) ∧
    (∀ horizon call, call.LeavesStage →
      (perform horizon h (.idle call)).2.analyser.stage = h.analyser.stage) ∧
    (h.analyser.version = begun.version ∧ h.analyser.geometry = begun.geometry) ∧
    ∃ lines, h.analyser.log = lines ++ log ∧ Stage.idle.Leads lines h.analyser.stage := by
  have sound := since.sound
  refine ⟨?_, ?_, ?_, fun a b => ⟨fun status run => ?_, fun error run => poll_error run⟩,
    ?_, ?_, ?_⟩
  · rintro a settings rfl
    have underWay : a.stage.UnderWay := sound
    cases stage : a.stage with
    | armed | running | done | readingBack => simp
    | idle | configuring =>
      rw [stage] at underWay
      exact underWay.elim
  · rintro horizon a settings call b rfl back
    have settled := settled_performArmed horizon sound settings call
    rw [perform] at back
    rwa [back] at settled
  · intro horizon p refusal b failed
    cases h with
    | idle a =>
      have settled := settled_arm horizon a p
      rw [perform] at failed
      rwa [failed] at settled
    | armed | lost => cases failed
  · rw [poll_ok run]
    cases status <;> rfl
  · intro horizon call leaves
    have keeps : ∀ c, Call.idle call = .idle c →
        Keeps (fun b : Analyser σ => b.stage = h.analyser.stage) (idleSession horizon c) := by
      rintro c ⟨⟩
      exact keeps_stage_idleSession horizon leaves _
    refine perform_keeps (h := h) keeps (fun settings c is => ?_) rfl
    cases is
  · exact since.invariant (sessionInvariant_known _ _) ⟨rfl, rfl⟩
  · exact since.invariant (sessionInvariant_traced .idle log) start.traced

def isIdle : Handle σ → Bool
  | idle _ => true
  | armed .. | lost _ => false

omit [Link σ] in
theorem exists_idle {h : Handle σ} (known : h.isIdle = true) : ∃ b, h = idle b := by
  cases h with
  | idle a => exact ⟨a, rfl⟩
  | armed | lost => cases known

/-- The analyser that falters, probed. -/
def falteringProbed : Analyser Script := after probe { link := faltering }

/-- A capture on it, half read. -/
def halfRead : Handle Script :=
  (perform glance (perform glance (idle falteringProbed) (.idle (.arm twoSamples))).2
    (.armed (.waitTimeout 1))).2

/-- It is still under way, and to read it as a whole ends it. -/
theorem stages_of_session_halfRead :
    Begun faltering [] falteringProbed ∧ Since falteringProbed halfRead ∧
      (∃ a, halfRead = armed a twoSamples.settings ∧ a.stage = .readingBack ∧
        ∃ b, (perform glance halfRead (.armed (.waitTimeout 1))).2 = idle b ∧ b.stage = .idle) ∧
      halfRead.analyser.version = some 7 ∧
      ∃ lines, halfRead.analyser.log = lines ++ [] ∧
        Stage.idle.Leads lines halfRead.analyser.stage := by
  have begun : Begun faltering [] falteringProbed := .probed (by with_unfolding_all rfl)
  have since : Since falteringProbed halfRead :=
    .call glance (.call glance .start (by rintro ⟨⟩)) (by rintro ⟨⟩)
  have still : halfRead = armed halfRead.analyser twoSamples.settings :=
    eq_armed_of_settings (by decide +kernel)
  have ended : ∃ b, (perform glance halfRead (.armed (.waitTimeout 1))).2 = idle b :=
    exists_idle (by decide +kernel)
  obtain ⟨b, back⟩ := ended
  obtain ⟨-, given_back, -, -, -, ⟨version, -⟩, chain⟩ := stages_of_session begun since
  exact ⟨begun, since, ⟨_, still, by decide +kernel, b, back, given_back _ _ _ _ b still back⟩,
    version.trans (by decide +kernel), chain⟩

end Handle

end LogicCapture
