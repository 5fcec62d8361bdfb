import LogicCapture.Analyser.Armed

/-!
Handles: who may do what with an analyser. An idle handle takes configurations
and starts acquisitions; an armed handle stands for one acquisition in flight
and offers what concerns it. Some failures of an armed handle leave nothing to
go on with. `Handle.perform` carries out one call and says which handle comes
after it.
-/

namespace LogicCapture

/-! ## Calls and answers -/

/-- What can be asked of an idle handle. -/
inductive IdleCall where
  | version
  | geometry
  | transferUnit
  | compileAndLoad (program : Program)
  | loadProgram (program : Program)
  | writeLength (count : Nat)
  | writePreTrigger (count : Nat)
  | writeControl (control : Control)
  | readStatus
  | readVersion
  | tryReadVersion
  | readGeometry
  | start (program : Program)
  | pollUntilDone
  | readSamples (count : Nat)
  | capture (program : Program)
  /-- Forget what is known about the analyser, but not the link. -/
  | renew
  | arm (program : Program)

/-- What can be asked of an armed handle. -/
inductive ArmedCall where
  | poll
  | tryResult
  | wait
  /-- Give up after so many nanoseconds. -/
  | waitTimeout (timeout : Nat)
  | cancel

inductive Call where
  | idle (call : IdleCall)
  | armed (call : ArmedCall)

inductive Answer where
  | done
  | version (version : Option UInt8)
  | geometry (geometry : Geometry)
  | unit (bytes : Nat)
  | status (status : Status)
  | samples (samples : List UInt16)
  | reading (reading : Reading)
  | armed
  /-- The acquisition goes on. -/
  | pending
  | cancelled
deriving DecidableEq

inductive Refusal where
  /-- The call is one of the other handle. -/
  | wrongHandle
  | failed (error : AnalyserError)
deriving DecidableEq

/-! ## Handles -/

inductive Handle (σ : Type) where
  | idle (analyser : Analyser σ)
  | armed (analyser : Analyser σ) (settings : Settings)
  /-- The handle was used up; what is left of the analyser is only its record. -/
  | lost (analyser : Analyser σ)

namespace Handle

variable {σ : Type}

def analyser : Handle σ → Analyser σ
  | idle a | armed a _ | lost a => a

/-- Changes the analyser behind a handle. -/
def mapAnalyser (f : Analyser σ → Analyser σ) : Handle σ → Handle σ
  | idle a => idle (f a)
  | armed a settings => armed (f a) settings
  | lost a => lost (f a)

/-- The stage that a handle shows; a lost one shows none. -/
def stage? : Handle σ → Option Stage
  | idle a | armed a _ => some a.stage
  | lost _ => none

/-- How far a call may look: the clock that it reads, and the most polls. -/
structure Horizon where
  /-- Nanoseconds since the call at look number `i`. -/
  elapsed : Nat → Nat
  polls : Nat

/-- Runs a session; its outcome decides on the next handle. -/
def settle {α : Type} (a : Analyser σ) (session : Session σ α)
    (success : α → Analyser σ → Answer × Handle σ) (failure : Analyser σ → Handle σ) :
    Except Refusal Answer × Handle σ :=
  match session a with
  | .ok value after =>
    let (answer, handle) := success value after
    (.ok answer, handle)
  | .error error after => (.error (.failed error), failure after)

/-- The end of an acquisition, if it has come: the handle is idle again. -/
def conclude (settings : Settings) (reading? : Option Reading) (a : Analyser σ) :
    Answer × Handle σ :=
  match reading? with
  | some reading => (.reading reading, .idle a)
  | none => (.pending, .armed a settings)

variable [Link σ]

/-- What an idle call does short of arming. -/
def idleSession (h : Horizon) : IdleCall → Session σ Answer
  | .version => return .version (← get).version
  | .geometry => return .geometry (← get).geometry
  | .transferUnit => .unit <$> Analyser.transferUnit
  | .compileAndLoad program => Analyser.compileAndLoad program *> pure .done
  | .loadProgram program => Analyser.loadProgram program *> pure .done
  | .writeLength count => Analyser.writeLength count *> pure .done
  | .writePreTrigger count => Analyser.writePreTrigger count *> pure .done
  | .writeControl control => Analyser.writeControl control *> pure .done
  | .readStatus => .status <$> Analyser.readStatus
  | .readVersion => (.version ∘ some) <$> Analyser.readVersion
  | .tryReadVersion => .version <$> Analyser.tryReadVersion
  | .readGeometry => .geometry <$> Analyser.readGeometry
  | .start program => Analyser.start program *> pure .done
  | .pollUntilDone => do
    return if ← Analyser.pollUntilDone h.polls none then .done else .pending
  | .readSamples count => .samples <$> Analyser.readSamples count
  | .capture program => do
    match ← Analyser.capture h.polls program with
    | some reading => return .reading reading
    | none => return .pending
  | .renew => Analyser.renew *> pure .done
  | .arm program => Analyser.arm program *> pure .armed

def performIdle (h : Horizon) (a : Analyser σ) (call : IdleCall) :
    Except Refusal Answer × Handle σ :=
  let next (answer : Answer) (after : Analyser σ) : Answer × Handle σ :=
    match call with
    | .arm program => (answer, .armed after program.settings)
    | _ => (answer, .idle after)
  settle a (idleSession h call) next .idle

def performArmed (h : Horizon) (a : Analyser σ) (settings : Settings) :
    ArmedCall → Except Refusal Answer × Handle σ
  | .poll =>
    settle a Analyser.poll (fun status after => (.status status, .armed after settings))
      (.armed · settings)
  | .tryResult => settle a (Analyser.tryResult settings) (conclude settings) .lost
  | .wait => settle a (Analyser.wait h.polls settings) (conclude settings) .lost
  | .waitTimeout timeout =>
    settle a (Analyser.waitTimeout h.elapsed timeout h.polls settings) (conclude settings)
      (.armed · settings)
  | .cancel => settle a Analyser.cancel (fun _ after => (.cancelled, .idle after)) .lost

/-- Carries out a call; one of the other handle is refused and changes
nothing. -/
def perform (h : Horizon) : Handle σ → Call → Except Refusal Answer × Handle σ
  | .idle a, .idle call => performIdle h a call
  | .armed a settings, .armed call => performArmed h a settings call
  | handle, _ => (.error .wrongHandle, handle)

end Handle

end LogicCapture
