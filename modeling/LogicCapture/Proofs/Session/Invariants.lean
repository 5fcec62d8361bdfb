import LogicCapture.Proofs.Session.Reachable

/-!
# Invariants of all sessions

Sessions are put together from few parts: a line in the log, a frame sent in
pieces, a request and its reply, a change of stage. `TransferInvariant` asks of an
invariant that it is kept by what leaves the stage alone, `SessionInvariant` that
it is kept by changes of stage and by reading back as well. From that all sessions
keep it, and so do all calls.
-/

namespace LogicCapture

/-- The line says that the stage is another one. -/
def LogLine.IsMove : LogLine → Prop
  | stageChanged _ _ => True
  | _ => False

namespace Session

open Analyser

variable {σ : Type} [Link σ] {inv : Analyser σ → Prop}

/-! ## What the parts keep -/

/-- The invariant is kept by lines of the log, frames and requests. -/
structure TransferInvariant (inv : Analyser σ → Prop) : Prop where
  note (line : LogLine) (plain : ¬ line.IsMove := by exact id) : Keeps inv (note line)
  sendPieces (phase : Phase) (frame : List UInt8) : Keeps inv (sendPieces phase frame)
  requestByte (phase : Phase) (command : Wire.Command) : Keeps inv (requestByte phase command)
  requestGeometry :
    Keeps inv (request .readGeometry (Wire.bareFrame Wire.Command.readGeometry.code) 8)

/-- It is also kept by changes of stage and by reading back. -/
structure SessionInvariant (inv : Analyser σ → Prop) : Prop extends TransferInvariant inv where
  enter (stage : Stage) : Keeps inv (enter stage)
  readSamples (count : Nat) : Keeps inv (readSamples count)

section During

variable (during : ∀ {α : Type} (phase : Phase) (transfer : σ → Transfer σ α),
  Keeps inv (during phase transfer))

include during

theorem keeps_request (phase : Phase) (frame : List UInt8) (length : Nat) :
    Keeps inv (request phase frame length) := by
  refine (during phase _).bind fun _ => (during phase _).bind fun reply => ?_
  split
  · exact .throw _
  · exact .pure _

theorem keeps_requestSamples {most : Nat} (some_fit : 0 < most) (missing : Nat) :
    Keeps inv (requestSamples most some_fit missing : Session σ (List UInt16)) := by
  induction missing using Nat.strongRecOn with
  | ind missing ih =>
    rw [requestSamples]
    split
    · exact .pure _
    · refine (keeps_request during _ _ _).bind fun _ => ?_
      exact (ih _ (by omega)).bind fun _ => .pure _

/-- Nothing more is to be shown if every single transfer keeps the invariant. -/
theorem TransferInvariant.of_during
    (noted : ∀ line : LogLine, ¬ line.IsMove → Keeps inv (Analyser.note line)) :
    TransferInvariant inv := by
  refine ⟨?_, ?_, fun phase command => ?_, ?_⟩
  · exact noted
  · intro phase frame a holds
    have cut : Keeps inv ((pieces (Link.unit a.link) frame).forM fun piece =>
        Analyser.during phase (Link.send piece)) :=
      .forM fun piece _ => during phase (Link.send piece)
    rw [after, sendPieces_eq]
    exact (cut.bind fun _ => noted (.sent frame.length phase) id) a holds
  · refine (keeps_request during _ _ _).bind fun reply => ?_
    split
    · exact .pure _
    · exact .throw _
  · exact keeps_request during _ _ _

theorem SessionInvariant.of_during
    (noted : ∀ line : LogLine, ¬ line.IsMove → Keeps inv (Analyser.note line))
    (entered : ∀ stage, Keeps inv (Analyser.enter stage)) : SessionInvariant inv := by
  refine ⟨.of_during during noted, entered, fun count a holds => ?_⟩
  unfold after
  rcases Nat.lt_or_ge (Link.unit a.link) 2 with small | carries
  · rwa [readSamples_of_small small]
  · rw [readSamples_of_carries carries]
    refine ((entered _).bind fun _ => ?_) a holds
    refine (keeps_requestSamples during _ _).bind fun samples => ?_
    exact (noted (.readBack samples.length) id).bind fun _ => (entered _).bind fun _ => .pure _

end During

/-! ## Questions and registers -/

namespace TransferInvariant

variable (invariant : TransferInvariant inv)

include invariant

theorem noteAll {lines : List LogLine} (plain : ∀ line ∈ lines, ¬ line.IsMove) :
    Keeps inv (noteAll lines : Session σ Unit) := by
  induction lines with
  | nil => exact fun _ holds => holds
  | cons line rest ih =>
    intro a holds
    have noted := invariant.note line (plain line List.mem_cons_self) a holds
    have others := ih (fun other mem => plain other (List.mem_cons_of_mem _ mem)) _ noted
    have same : after (Analyser.noteAll (line :: rest)) a =
        after (Analyser.noteAll rest) (after (Analyser.note line) a) := by
      change ({ a with log := (line :: rest).reverse ++ a.log } : Analyser σ) =
        { a with log := rest.reverse ++ line :: a.log }
      rw [List.reverse_cons, List.append_assoc, List.singleton_append]
    exact same ▸ others

theorem writeCount (phase : Phase) (command : Wire.Command) (count : Nat) :
    Keeps inv (Analyser.writeCount phase command count) := by
  unfold Analyser.writeCount
  split
  · exact invariant.sendPieces _ _
  · exact .throw _

theorem writeControl (control : Control) : Keeps inv (Analyser.writeControl control) :=
  (invariant.note _).bind fun _ => invariant.sendPieces _ _

theorem readStatus : Keeps inv (Analyser.readStatus : Session σ Status) := by
  refine (invariant.requestByte _ _).bind fun byte => ?_
  split
  · exact .pure _
  · exact .throw _

theorem tryReadVersion : Keeps inv (Analyser.tryReadVersion : Session σ (Option UInt8)) := by
  refine (invariant.requestByte _ _).map.tryCatch fun _ => ?_
  exact (invariant.note _).bind fun _ => .pure _

theorem readGeometry : Keeps inv (Analyser.readGeometry : Session σ Geometry) := by
  refine invariant.requestGeometry.bind fun _ => ?_
  split
  · exact .pure _
  · exact .throw _

theorem probe (version : ∀ a version, inv a → inv { a with version })
    (geometry : ∀ a geometry, inv a → inv { a with geometry }) :
    Keeps inv (Analyser.probe : Session σ Unit) := by
  refine (invariant.requestByte _ _).bind fun _ => ?_
  refine .bind (.modify fun a => version a _) fun _ => invariant.readGeometry.bind fun _ => ?_
  exact .bind (.modify fun a => geometry a _) fun _ => invariant.note _

end TransferInvariant

/-! ## Following the status -/

theorem keeps_pollUntilDone (poll : Keeps inv poll)
    (note : ∀ status, Keeps inv (note (.status status))) (limit : Nat) (before : Option Status) :
    Keeps inv (pollUntilDone limit before) := by
  induction limit generalizing before with
  | zero => exact .pure _
  | succ limit ih =>
    refine poll.bind fun status => ?_
    have rest : Keeps inv (if status = .done then pure true
        else pollUntilDone limit (some status) : Session σ Bool) := by
      split
      · exact .pure _
      · exact ih _
    dsimp only
    split
    · exact rest
    · exact (note _).bind fun _ => rest

theorem keeps_pollInTime (poll : Keeps inv poll) (elapsed : Nat → Nat)
    (timeout limit look : Nat) : Keeps inv (pollInTime elapsed timeout limit look) := by
  induction limit generalizing look with
  | zero => exact .pure _
  | succ limit ih =>
    refine poll.bind fun status => ?_
    dsimp only
    split
    · exact .pure _
    · split
      · exact (Keeps.throw _).bind fun _ => ih _
      · exact ih _

/-! ## Acquisitions -/

namespace SessionInvariant

variable (invariant : SessionInvariant inv)

include invariant

theorem load (image : Image) : Keeps inv (Analyser.load image) := by
  refine .get_bind fun a holds => ?_
  split
  · exact holds
  · refine ((invariant.enter _).bind fun _ => ?_) a holds
    exact (invariant.sendPieces _ _).bind fun _ => invariant.note _

theorem compileAndLoad (p : Program) : Keeps inv (Analyser.compileAndLoad p) := by
  refine (invariant.noteAll ?_).bind fun _ => invariant.load _
  exact List.forall_mem_singleton.2 id

theorem loadProgram (p : Program) : Keeps inv (Analyser.loadProgram p) := by
  refine (invariant.noteAll fun line mem => ?_).bind fun _ => invariant.compileAndLoad p
  obtain ⟨i, lt, rfl⟩ := List.mem_mapIdx.1 mem
  exact id

theorem start (p : Program) : Keeps inv (Analyser.start p) := by
  refine (invariant.loadProgram p).bind fun _ => ?_
  refine (invariant.writeCount _ _ _).bind fun _ => (invariant.writeCount _ _ _).bind fun _ => ?_
  refine (invariant.writeControl _).bind fun _ => (invariant.writeControl _).bind fun _ => ?_
  exact (invariant.writeControl _).bind fun _ => invariant.enter _

theorem arm (p : Program) : Keeps inv (Analyser.arm p) :=
  (invariant.start p).tryCatch fun _ => (invariant.enter _).bind fun _ => .throw _

theorem cancel : Keeps inv (Analyser.cancel : Session σ Unit) :=
  (invariant.writeControl _).bind fun _ => (invariant.enter _).bind fun _ => invariant.note _

theorem poll : Keeps inv (Analyser.poll : Session σ Status) := by
  refine invariant.readStatus.bind fun status => ?_
  split
  · exact (invariant.enter _).bind fun _ => .pure _
  · exact .pure _

theorem pollUntilDone (limit : Nat) (before : Option Status) :
    Keeps inv (Analyser.pollUntilDone limit before) :=
  keeps_pollUntilDone invariant.poll (fun _ => invariant.note _) limit before

theorem readReading (settings : Settings) : Keeps inv (Analyser.readReading settings) :=
  (invariant.readSamples _).bind fun _ => .pure _

theorem tryResult (settings : Settings) : Keeps inv (Analyser.tryResult settings) := by
  refine invariant.poll.bind fun status => ?_
  split
  · exact (invariant.readReading _).map
  · exact .pure _

theorem wait (limit : Nat) (settings : Settings) : Keeps inv (Analyser.wait limit settings) := by
  refine (invariant.pollUntilDone _ _).bind fun found => ?_
  split
  · exact (invariant.readReading _).map
  · exact .pure _

theorem waitTimeout (elapsed : Nat → Nat) (timeout limit : Nat) (settings : Settings) :
    Keeps inv (Analyser.waitTimeout elapsed timeout limit settings) := by
  refine (keeps_pollInTime invariant.poll _ _ _ _).bind fun found => ?_
  split
  · exact (invariant.readReading _).map
  · exact .pure _

theorem capture (limit : Nat) (p : Program) : Keeps inv (Analyser.capture limit p) :=
  (invariant.start p).bind fun _ => invariant.wait limit p.settings

/-- What an idle handle is asked for keeps the invariant, also if that is to start
over, provided that this does. -/
theorem idleSession (horizon : Handle.Horizon) (call : IdleCall)
    (renew : call = .renew → Keeps inv renew) :
    Keeps inv (Handle.idleSession horizon call) := by
  cases call with
  | version => exact .get_bind fun _ holds => holds
  | geometry => exact .get_bind fun _ holds => holds
  | transferUnit => exact Keeps.map fun _ holds => holds
  | compileAndLoad p => exact (invariant.compileAndLoad p).seqRight (.pure _)
  | loadProgram p => exact (invariant.loadProgram p).seqRight (.pure _)
  | writeLength count => exact (invariant.writeCount _ _ count).seqRight (.pure _)
  | writePreTrigger count => exact (invariant.writeCount _ _ count).seqRight (.pure _)
  | writeControl control => exact (invariant.writeControl control).seqRight (.pure _)
  | readStatus => exact invariant.readStatus.map
  | readVersion => exact (invariant.requestByte _ _).map
  | tryReadVersion => exact invariant.tryReadVersion.map
  | readGeometry => exact invariant.readGeometry.map
  | start p => exact (invariant.start p).seqRight (.pure _)
  | pollUntilDone => exact (invariant.pollUntilDone _ _).bind fun _ => .pure _
  | readSamples count => exact (invariant.readSamples count).map
  | capture p =>
    refine (invariant.capture _ p).bind fun reading? => ?_
    split
    · exact .pure _
    · exact .pure _
  | renew => exact (renew rfl).seqRight (.pure _)
  | arm p => exact (invariant.arm p).seqRight (.pure _)

theorem armedSession (horizon : Handle.Horizon) (settings : Settings) (call : ArmedCall) :
    Keeps inv (Handle.armedSession horizon settings call) := by
  cases call with
  | poll => exact invariant.poll.map
  | tryResult => exact (invariant.tryResult settings).map
  | wait => exact (invariant.wait _ settings).map
  | waitTimeout timeout => exact (invariant.waitTimeout _ timeout _ settings).map
  | cancel => exact invariant.cancel

/-- A call that does not start over keeps the invariant. -/
theorem perform (horizon : Handle.Horizon) {h : Handle σ} (holds : inv h.analyser) {call : Call}
    (goes_on : call ≠ .idle .renew) : inv (h.perform horizon call).2.analyser := by
  refine Handle.perform_keeps (fun c is => ?_) (fun settings c _ => ?_) holds
  · refine invariant.idleSession horizon c fun renews => ?_
    exact absurd (renews ▸ is) goes_on
  · exact invariant.armedSession horizon settings c

end SessionInvariant

end Session

end LogicCapture
