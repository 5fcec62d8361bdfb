import LogicCapture.Proofs.Session.Reachable

/-!
# Correspondences of sessions

What a session does is written once, for all links. So a relation between sessions
over two kinds of links holds of every session and itself as soon as it holds of
the few parts that sessions are made of, and goes through binds and handlers of
errors: `Session.Correspondence` asks for that much, and every session and every
call follow.
-/

namespace LogicCapture

namespace Session

variable {σ τ : Type} [Link σ] [Link τ]

/-- A relation between sessions over two kinds of links that the parts of sessions
are in, and that is kept when they are put together. -/
structure Correspondence (rel : ∀ {α : Type}, Session σ α → Session τ α → Prop) : Prop where
  pure {α : Type} (value : α) : rel (Pure.pure value) (Pure.pure value)
  throw {α : Type} (error : AnalyserError) :
    rel (MonadExcept.throw error : Session σ α) (MonadExcept.throw error)
  bind {α β : Type} {x : Session σ α} {y : Session τ α} {f : α → Session σ β}
    {g : α → Session τ β} : rel x y → (∀ value, rel (f value) (g value)) →
      rel (x >>= f) (y >>= g)
  tryCatch {α : Type} {x : Session σ α} {y : Session τ α} {f : AnalyserError → Session σ α}
    {g : AnalyserError → Session τ α} : rel x y → (∀ error, rel (f error) (g error)) →
      rel (MonadExcept.tryCatch x f) (MonadExcept.tryCatch y g)
  noteAll (lines : List LogLine) : rel (Analyser.noteAll lines) (Analyser.noteAll lines)
  enter (stage : Stage) : rel (Analyser.enter stage) (Analyser.enter stage)
  version : rel (Analyser.version <$> get) (Analyser.version <$> get)
  geometry : rel (Analyser.geometry <$> get) (Analyser.geometry <$> get)
  setVersion (version : Option UInt8) :
    rel (modify fun a => { a with version }) (modify fun a => { a with version })
  setGeometry (geometry : Geometry) :
    rel (modify fun a => { a with geometry }) (modify fun a => { a with geometry })
  renew : rel Analyser.renew Analyser.renew
  transferUnit : rel Analyser.transferUnit Analyser.transferUnit
  send (phase : Phase) (bytes : List UInt8) :
    rel (Analyser.during phase (Link.send bytes)) (Analyser.during phase (Link.send bytes))
  receive (phase : Phase) (length : Nat) :
    rel (Analyser.during phase (Link.receive length)) (Analyser.during phase (Link.receive length))

namespace Correspondence

variable {rel : ∀ {α : Type}, Session σ α → Session τ α → Prop}
  (corresponds : Correspondence rel)

include corresponds

theorem map {α β : Type} {x : Session σ α} {y : Session τ α} (fn : α → β) (holds : rel x y) :
    rel (fn <$> x) (fn <$> y) := by
  rw [map_eq_pure_bind, map_eq_pure_bind]
  exact corresponds.bind holds fun value => corresponds.pure (fn value)

theorem seqRight {α β : Type} {x : Session σ α} {y : Session τ α} {x' : Session σ β}
    {y' : Session τ β} (first : rel x y) (second : rel x' y') : rel (x *> x') (y *> y') := by
  rw [seqRight_eq_bind, seqRight_eq_bind]
  exact corresponds.bind first fun _ => second

theorem forM {α : Type} {f : α → Session σ Unit} {g : α → Session τ Unit} (items : List α)
    (each : ∀ item, rel (f item) (g item)) : rel (items.forM f) (items.forM g) := by
  induction items with
  | nil => exact corresponds.pure ()
  | cons item rest ih => exact corresponds.bind (each item) fun _ => ih

theorem note (line : LogLine) : rel (Analyser.note line) (Analyser.note line) :=
  corresponds.noteAll [line]

/-! ## Transfers -/

theorem sendPieces (phase : Phase) (frame : List UInt8) :
    rel (Analyser.sendPieces phase frame) (Analyser.sendPieces phase frame) := by
  refine corresponds.bind corresponds.transferUnit fun unit => ?_
  refine corresponds.bind ?_ fun _ => corresponds.note _
  exact corresponds.forM _ fun piece => corresponds.send phase piece

theorem request (phase : Phase) (frame : List UInt8) (length : Nat) :
    rel (Analyser.request phase frame length) (Analyser.request phase frame length) := by
  refine corresponds.bind (corresponds.send phase frame) fun _ => ?_
  refine corresponds.bind (corresponds.receive phase length) fun reply => ?_
  split
  · exact corresponds.throw _
  · exact corresponds.pure reply

theorem requestByte (phase : Phase) (command : Wire.Command) :
    rel (Analyser.requestByte phase command) (Analyser.requestByte phase command) := by
  refine corresponds.bind (corresponds.request phase _ 1) fun reply => ?_
  split
  · exact corresponds.pure _
  · exact corresponds.throw _

/-! ## Configuration -/

theorem load (image : Image) : rel (Analyser.load image) (Analyser.load image) := by
  -- of what is known about the analyser, loading looks at the geometry only
  have looks {ρ : Type} [Link ρ] : (Analyser.load image : Session ρ Unit) = (do
      let geometry ← Analyser.geometry <$> get
      if image.geometry ≠ geometry then
        MonadExcept.throw (.trigger .geometryMismatch)
      Analyser.enter .configuring
      Analyser.sendPieces .loadTables image.frame
      Analyser.note (.loaded image.words.length)) := rfl
  rw [looks, looks]
  refine corresponds.bind corresponds.geometry fun geometry => ?_
  have rest : rel (do
        Analyser.enter .configuring
        Analyser.sendPieces .loadTables image.frame
        Analyser.note (.loaded image.words.length)) (do
        Analyser.enter .configuring
        Analyser.sendPieces .loadTables image.frame
        Analyser.note (.loaded image.words.length)) := by
    refine corresponds.bind (corresponds.enter _) fun _ => ?_
    exact corresponds.bind (corresponds.sendPieces _ _) fun _ => corresponds.note _
  dsimp only
  split
  · exact corresponds.bind (corresponds.throw _) fun _ => rest
  · exact rest

theorem compileAndLoad (p : Program) :
    rel (Analyser.compileAndLoad p) (Analyser.compileAndLoad p) :=
  corresponds.bind (corresponds.noteAll _) fun _ => corresponds.load p.compile

theorem loadProgram (p : Program) : rel (Analyser.loadProgram p) (Analyser.loadProgram p) :=
  corresponds.bind (corresponds.noteAll _) fun _ => corresponds.compileAndLoad p

theorem writeCount (phase : Phase) (command : Wire.Command) (count : Nat) :
    rel (Analyser.writeCount phase command count) (Analyser.writeCount phase command count) := by
  unfold Analyser.writeCount
  split
  · exact corresponds.sendPieces _ _
  · exact corresponds.throw _

theorem writeControl (control : Control) :
    rel (Analyser.writeControl control) (Analyser.writeControl control) :=
  corresponds.bind (corresponds.note _) fun _ => corresponds.sendPieces _ _

theorem start (p : Program) : rel (Analyser.start p) (Analyser.start p) := by
  refine corresponds.bind (corresponds.loadProgram p) fun _ => ?_
  refine corresponds.bind (corresponds.writeCount _ _ _) fun _ => ?_
  refine corresponds.bind (corresponds.writeCount _ _ _) fun _ => ?_
  refine corresponds.bind (corresponds.writeControl _) fun _ => ?_
  refine corresponds.bind (corresponds.writeControl _) fun _ => ?_
  exact corresponds.bind (corresponds.writeControl _) fun _ => corresponds.enter _

/-! ## What the analyser tells about itself -/

theorem readStatus : rel Analyser.readStatus Analyser.readStatus := by
  refine corresponds.bind (corresponds.requestByte _ _) fun byte => ?_
  split
  · exact corresponds.pure _
  · exact corresponds.throw _

theorem tryReadVersion : rel Analyser.tryReadVersion Analyser.tryReadVersion := by
  refine corresponds.tryCatch (corresponds.map _ (corresponds.requestByte _ _)) fun error => ?_
  exact corresponds.bind (corresponds.note _) fun _ => corresponds.pure _

theorem readGeometry : rel Analyser.readGeometry Analyser.readGeometry := by
  refine corresponds.bind (corresponds.request _ _ _) fun reply => ?_
  split
  · exact corresponds.pure _
  · exact corresponds.throw _

theorem probe : rel Analyser.probe Analyser.probe := by
  refine corresponds.bind (corresponds.requestByte _ _) fun version => ?_
  refine corresponds.bind (corresponds.setVersion (some version)) fun _ => ?_
  refine corresponds.bind corresponds.readGeometry fun geometry => ?_
  exact corresponds.bind (corresponds.setGeometry geometry) fun _ => corresponds.note _

/-! ## Following the status -/

theorem poll : rel Analyser.poll Analyser.poll := by
  refine corresponds.bind corresponds.readStatus fun status => ?_
  split
  · exact corresponds.bind (corresponds.enter _) fun _ => corresponds.pure status
  · exact corresponds.pure status

theorem pollUntilDone (limit : Nat) (before : Option Status) :
    rel (Analyser.pollUntilDone limit before) (Analyser.pollUntilDone limit before) := by
  induction limit generalizing before with
  | zero => exact corresponds.pure false
  | succ limit ih =>
    refine corresponds.bind corresponds.poll fun status => ?_
    have rest : rel (if status = .done then Pure.pure true
          else Analyser.pollUntilDone limit (some status))
        (if status = .done then Pure.pure true
          else Analyser.pollUntilDone limit (some status)) := by
      split
      · exact corresponds.pure true
      · exact ih (some status)
    dsimp only
    split
    · exact rest
    · exact corresponds.bind (corresponds.note _) fun _ => rest

theorem pollInTime (elapsed : Nat → Nat) (timeout limit look : Nat) :
    rel (Analyser.pollInTime elapsed timeout limit look)
      (Analyser.pollInTime elapsed timeout limit look) := by
  induction limit generalizing look with
  | zero => exact corresponds.pure false
  | succ limit ih =>
    refine corresponds.bind corresponds.poll fun status => ?_
    dsimp only
    split
    · exact corresponds.pure true
    · split
      · exact corresponds.bind (corresponds.throw _) fun _ => ih (look + 1)
      · exact ih (look + 1)

/-! ## Reading back -/

theorem requestSamples {most : Nat} (some_fit : 0 < most) (missing : Nat) :
    rel (Analyser.requestSamples most some_fit missing)
      (Analyser.requestSamples most some_fit missing) := by
  induction missing using Nat.strongRecOn with
  | ind missing ih =>
    rw [Analyser.requestSamples, Analyser.requestSamples]
    split
    · exact corresponds.pure []
    · refine corresponds.bind (corresponds.request .readBuffer _ _) fun bytes => ?_
      exact corresponds.bind (ih _ (by omega)) fun rest => corresponds.pure _

theorem readSamples (count : Nat) :
    rel (Analyser.readSamples count) (Analyser.readSamples count) := by
  refine corresponds.bind corresponds.transferUnit fun unit => ?_
  split
  · refine corresponds.bind (corresponds.enter _) fun _ => ?_
    refine corresponds.bind (corresponds.requestSamples _ _) fun samples => ?_
    refine corresponds.bind (corresponds.note _) fun _ => ?_
    exact corresponds.bind (corresponds.enter _) fun _ => corresponds.pure samples
  · exact corresponds.throw _

theorem readReading (settings : Settings) :
    rel (Analyser.readReading settings) (Analyser.readReading settings) :=
  corresponds.bind (corresponds.readSamples _) fun _ => corresponds.pure _

/-- Reading back comes after the capture was found done, or not at all. -/
theorem readIfDone {done : Prop} [Decidable done] (settings : Settings) :
    rel (if done then some <$> Analyser.readReading settings else Pure.pure none)
      (if done then some <$> Analyser.readReading settings else Pure.pure none) := by
  split
  · exact corresponds.map some (corresponds.readReading settings)
  · exact corresponds.pure none

/-! ## Acquisitions -/

theorem wait (limit : Nat) (settings : Settings) :
    rel (Analyser.wait limit settings) (Analyser.wait limit settings) :=
  corresponds.bind (corresponds.pollUntilDone limit none) fun _ => corresponds.readIfDone settings

theorem waitTimeout (elapsed : Nat → Nat) (timeout limit : Nat) (settings : Settings) :
    rel (Analyser.waitTimeout elapsed timeout limit settings)
      (Analyser.waitTimeout elapsed timeout limit settings) :=
  corresponds.bind (corresponds.pollInTime elapsed timeout limit 0) fun _ =>
    corresponds.readIfDone settings

theorem tryResult (settings : Settings) :
    rel (Analyser.tryResult settings) (Analyser.tryResult settings) :=
  corresponds.bind corresponds.poll fun _ => corresponds.readIfDone settings

theorem capture (limit : Nat) (p : Program) :
    rel (Analyser.capture limit p) (Analyser.capture limit p) :=
  corresponds.bind (corresponds.start p) fun _ => corresponds.wait limit p.settings

theorem arm (p : Program) : rel (Analyser.arm p) (Analyser.arm p) := by
  refine corresponds.tryCatch (corresponds.start p) fun error => ?_
  exact corresponds.bind (corresponds.enter _) fun _ => corresponds.throw error

theorem cancel : rel Analyser.cancel Analyser.cancel := by
  refine corresponds.bind (corresponds.writeControl _) fun _ => ?_
  exact corresponds.bind (corresponds.enter _) fun _ => corresponds.note _

/-- All that an idle handle can be asked for. -/
theorem idleSession (horizon : Handle.Horizon) (call : IdleCall) :
    rel (Handle.idleSession horizon call) (Handle.idleSession horizon call) := by
  cases call with
  | version => exact corresponds.bind corresponds.version fun _ => corresponds.pure _
  | geometry => exact corresponds.bind corresponds.geometry fun _ => corresponds.pure _
  | transferUnit => exact corresponds.map _ corresponds.transferUnit
  | compileAndLoad p =>
    exact corresponds.seqRight (corresponds.compileAndLoad p) (corresponds.pure _)
  | loadProgram p => exact corresponds.seqRight (corresponds.loadProgram p) (corresponds.pure _)
  | writeLength count =>
    exact corresponds.seqRight (corresponds.writeCount _ _ count) (corresponds.pure _)
  | writePreTrigger count =>
    exact corresponds.seqRight (corresponds.writeCount _ _ count) (corresponds.pure _)
  | writeControl control =>
    exact corresponds.seqRight (corresponds.writeControl control) (corresponds.pure _)
  | readStatus => exact corresponds.map _ corresponds.readStatus
  | readVersion => exact corresponds.map _ (corresponds.requestByte _ _)
  | tryReadVersion => exact corresponds.map _ corresponds.tryReadVersion
  | readGeometry => exact corresponds.map _ corresponds.readGeometry
  | start p => exact corresponds.seqRight (corresponds.start p) (corresponds.pure _)
  | pollUntilDone =>
    exact corresponds.bind (corresponds.pollUntilDone _ _) fun _ => corresponds.pure _
  | readSamples count => exact corresponds.map _ (corresponds.readSamples count)
  | capture p =>
    refine corresponds.bind (corresponds.capture _ p) fun reading? => ?_
    cases reading? with
    | none => exact corresponds.pure _
    | some reading => exact corresponds.pure _
  | renew => exact corresponds.seqRight corresponds.renew (corresponds.pure _)
  | arm p => exact corresponds.seqRight (corresponds.arm p) (corresponds.pure _)

end Correspondence

end Session

end LogicCapture
