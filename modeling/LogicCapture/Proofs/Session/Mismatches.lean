import LogicCapture.Proofs.Image.Layout
import LogicCapture.Proofs.Session.Readings

/-!
# Programs for the geometry of the analyser

An analyser refuses a program that was made for another geometry, and nothing else
is refused so: only `Analyser.load` looks at the geometry of what it is given. With
a program for the right geometry no session and no call of a handle ends with a
mismatch, whatever the link does.
-/

namespace LogicCapture

/-! ## Sessions without a mismatch -/

namespace Session

/-- What the session fails for from here, if it fails, is not a program for another
engine. -/
def NoMismatch {σ α : Type} (x : Session σ α) (a : Analyser σ) : Prop :=
  ∀ b, x a ≠ .error (.trigger .geometryMismatch) b

variable {σ α β : Type} {x : Session σ α} {f : α → Session σ β} {a : Analyser σ}

theorem NoMismatch.pure (value : α) : NoMismatch (Pure.pure value : Session σ α) a := by
  rintro b ⟨⟩

theorem NoMismatch.throw {error : AnalyserError} (other : error ≠ .trigger .geometryMismatch) :
    NoMismatch (throw error : Session σ α) a := by
  rintro b ⟨⟩
  exact other rfl

theorem NoMismatch.bind (first : NoMismatch x a) (second : ∀ value b, NoMismatch (f value) b) :
    NoMismatch (x >>= f) a := by
  intro b failed
  rcases error_of_bind failed with failed | ⟨value, c, -, failed⟩
  · exact first b failed
  · exact second value c b failed

theorem NoMismatch.map {g : α → β} (first : NoMismatch x a) : NoMismatch (g <$> x) a := by
  rw [map_eq_pure_bind]
  exact first.bind fun value _ => .pure (g value)

theorem NoMismatch.seqRight {y : Session σ β} (first : NoMismatch x a)
    (second : ∀ b, NoMismatch y b) : NoMismatch (x *> y) a := by
  rw [seqRight_eq_bind]
  exact first.bind fun _ => second

theorem NoMismatch.forM {items : List β} {g : β → Session σ Unit}
    (each : ∀ item a, NoMismatch (g item) a) : NoMismatch (items.forM g) a := by
  induction items generalizing a with
  | nil => exact .pure ()
  | cons item rest ih => exact (each item a).bind fun _ _ => ih

theorem NoMismatch.modify (change : Analyser σ → Analyser σ) :
    NoMismatch (modify change : Session σ Unit) a := by
  rintro b ⟨⟩

end Session

namespace Analyser

open Session

variable {σ : Type}

theorem noMismatch_during {α : Type} (phase : Phase) (transfer : σ → Transfer σ α)
    (a : Analyser σ) : NoMismatch (during phase transfer) a := by
  intro b failed
  cases result : (transfer a.link).result with
  | ok value => cases (during_of_ok result).symm.trans failed
  | error cause => cases (during_of_error result).symm.trans failed

variable [Link σ]

theorem noMismatch_sendPieces (phase : Phase) (frame : List UInt8) (a : Analyser σ) :
    NoMismatch (sendPieces phase frame) a := by
  have cut : NoMismatch ((pieces (Link.unit a.link) frame).forM fun piece =>
      during phase (Link.send piece)) a :=
    .forM fun piece => noMismatch_during phase (Link.send piece)
  rw [NoMismatch, sendPieces_eq]
  exact cut.bind fun _ _ => .modify _

theorem noMismatch_request (phase : Phase) (frame : List UInt8) (length : Nat) (a : Analyser σ) :
    NoMismatch (request phase frame length) a := by
  refine (noMismatch_during phase _ a).bind fun _ b => ?_
  refine (noMismatch_during phase _ b).bind fun reply c => ?_
  split
  · exact .throw nofun
  · exact .pure _

theorem noMismatch_requestByte (phase : Phase) (command : Wire.Command) (a : Analyser σ) :
    NoMismatch (requestByte phase command) a := by
  refine (noMismatch_request phase _ 1 a).bind fun reply b => ?_
  split
  · exact .pure _
  · exact .throw nofun

theorem noMismatch_writeCount (phase : Phase) (command : Wire.Command) (count : Nat)
    (a : Analyser σ) : NoMismatch (writeCount phase command count) a := by
  unfold writeCount
  split
  · exact noMismatch_sendPieces _ _ a
  · exact .throw nofun

theorem noMismatch_writeControl (control : Control) (a : Analyser σ) :
    NoMismatch (writeControl control) a :=
  NoMismatch.bind (.modify _) fun _ => noMismatch_sendPieces _ _

theorem noMismatch_readStatus (a : Analyser σ) : NoMismatch (readStatus : Session σ Status) a := by
  refine (noMismatch_requestByte _ _ a).bind fun byte b => ?_
  split
  · exact .pure _
  · exact .throw nofun

omit [Link σ] in
theorem geometryOfReply_ne_mismatch (reply : List UInt8) :
    geometryOfReply reply ≠ .error (.trigger .geometryMismatch) := by
  intro failed
  unfold geometryOfReply at failed
  split at failed
  · next channels steps patterns counters _ =>
    split at failed
    · cases failed
    · rw [Geometry.make] at failed
      cases made :
          Geometry.ofShape ⟨channels.toNat, steps.toNat, patterns.toNat, counters.toNat⟩ with
      | ok geometry =>
        rw [made] at failed
        cases failed
      | error fault =>
        rw [made] at failed
        cases failed
  · cases failed

theorem noMismatch_readGeometry (a : Analyser σ) :
    NoMismatch (readGeometry : Session σ Geometry) a := by
  refine (noMismatch_request _ _ 8 a).bind fun reply b => ?_
  cases said : geometryOfReply reply with
  | ok geometry => exact .pure _
  | error error =>
    refine .throw fun mismatch => geometryOfReply_ne_mismatch reply ?_
    rw [said, mismatch]

theorem noMismatch_tryReadVersion (a : Analyser σ) :
    NoMismatch (tryReadVersion : Session σ (Option UInt8)) a := by
  intro b failed
  cases read : (some <$> readVersion : Session σ (Option UInt8)) a with
  | ok version c => cases (tryCatch_of_ok read).symm.trans failed
  | error error c => cases (tryCatch_of_error read).symm.trans failed

/-! ### Following the status and reading back -/

theorem noMismatch_poll (a : Analyser σ) : NoMismatch (poll : Session σ Status) a := by
  refine (noMismatch_readStatus a).bind fun status b => ?_
  split
  · exact NoMismatch.bind (.modify _) fun _ _ => .pure _
  · exact .pure _

theorem noMismatch_pollUntilDone (limit : Nat) (before : Option Status) (a : Analyser σ) :
    NoMismatch (pollUntilDone limit before) a := by
  induction limit generalizing before a with
  | zero => exact .pure _
  | succ limit ih =>
    refine (noMismatch_poll a).bind fun status b => ?_
    have rest : ∀ c, NoMismatch (if status = .done then pure true
        else pollUntilDone limit (some status) : Session σ Bool) c := by
      intro c
      split
      · exact .pure _
      · exact ih _ c
    dsimp only
    split
    · exact rest b
    · exact NoMismatch.bind (.modify _) fun _ => rest

theorem noMismatch_pollInTime (elapsed : Nat → Nat) (timeout limit look : Nat) (a : Analyser σ) :
    NoMismatch (pollInTime elapsed timeout limit look) a := by
  induction limit generalizing look a with
  | zero => exact .pure _
  | succ limit ih =>
    refine (noMismatch_poll a).bind fun status b => ?_
    dsimp only
    split
    · exact .pure _
    · split
      · exact NoMismatch.bind (.throw nofun) fun _ => ih _
      · exact ih _ b

theorem noMismatch_requestSamples {most : Nat} (some_fit : 0 < most) (missing : Nat)
    (a : Analyser σ) : NoMismatch (requestSamples most some_fit missing) a := by
  induction missing using Nat.strongRecOn generalizing a with
  | ind missing ih =>
    rw [requestSamples]
    split
    · exact .pure _
    · refine (noMismatch_request _ _ _ a).bind fun bytes b => ?_
      exact (ih _ (by omega) b).bind fun _ _ => .pure _

theorem noMismatch_readSamples (count : Nat) (a : Analyser σ) :
    NoMismatch (readSamples count : Session σ (List UInt16)) a := by
  unfold NoMismatch
  rcases Nat.lt_or_ge (Link.unit a.link) 2 with small | carries
  · rw [readSamples_of_small small]
    rintro b ⟨⟩
  · rw [readSamples_of_carries carries]
    refine NoMismatch.bind (.modify _) fun _ b => ?_
    refine (noMismatch_requestSamples _ _ b).bind fun samples c => ?_
    exact NoMismatch.bind (.modify _) fun _ d => NoMismatch.bind (.modify _) fun _ e => .pure _

theorem noMismatch_readIfDone (settings : Settings) (found : Bool) (a : Analyser σ) :
    NoMismatch (readIfDone settings found) a := by
  cases found with
  | true => exact ((noMismatch_readSamples _ a).bind fun _ _ => .pure _).map
  | false => exact .pure _

theorem noMismatch_tryResult (settings : Settings) (a : Analyser σ) :
    NoMismatch (tryResult settings) a := by
  refine (noMismatch_poll a).bind fun status b => ?_
  split
  · exact noMismatch_readIfDone settings true b
  · exact .pure _

theorem noMismatch_wait (limit : Nat) (settings : Settings) (a : Analyser σ) :
    NoMismatch (wait limit settings) a :=
  (noMismatch_pollUntilDone limit none a).bind (noMismatch_readIfDone settings)

theorem noMismatch_waitTimeout (elapsed : Nat → Nat) (timeout limit : Nat) (settings : Settings)
    (a : Analyser σ) : NoMismatch (waitTimeout elapsed timeout limit settings) a :=
  (noMismatch_pollInTime elapsed timeout limit 0 a).bind (noMismatch_readIfDone settings)

theorem noMismatch_cancel (a : Analyser σ) : NoMismatch (cancel : Session σ Unit) a :=
  (noMismatch_writeControl .clear a).bind fun _ _ =>
    NoMismatch.bind (.modify _) fun _ _ => .modify _

/-! ### Loading a program -/

section Loading

variable {a : Analyser σ} {p : Program}

theorem noMismatch_load {image : Image} (same : image.geometry = a.geometry) :
    NoMismatch (load image) a := by
  rw [NoMismatch, load_of_same same]
  refine NoMismatch.bind (.modify _) fun _ b => ?_
  exact (noMismatch_sendPieces _ _ b).bind fun _ _ => .modify _

/-- Lines of the log do not change what is known of the analyser. -/
theorem noMismatch_compileAndLoad (same : p.geometry = a.geometry) :
    NoMismatch (compileAndLoad p) a :=
  noMismatch_load (a := { a with log := p.compileLog.reverse ++ a.log })
    (p.compile_geometry.trans same)

theorem noMismatch_loadProgram (same : p.geometry = a.geometry) : NoMismatch (loadProgram p) a :=
  noMismatch_compileAndLoad (a := { a with log := p.listing.reverse ++ a.log }) same

theorem noMismatch_start (same : p.geometry = a.geometry) : NoMismatch (start p) a := by
  refine (noMismatch_loadProgram same).bind fun _ b => ?_
  refine (noMismatch_writeCount _ _ _ b).bind fun _ c => ?_
  refine (noMismatch_writeCount _ _ _ c).bind fun _ d => ?_
  refine (noMismatch_writeControl _ d).bind fun _ e => ?_
  refine (noMismatch_writeControl _ e).bind fun _ f => ?_
  exact (noMismatch_writeControl _ f).bind fun _ _ => .modify _

/-- A start that fails is undone, but its error is passed on. -/
theorem noMismatch_arm (same : p.geometry = a.geometry) : NoMismatch (arm p) a := by
  intro b failed
  cases started : start p a with
  | ok value c => cases (tryCatch_of_ok started).symm.trans failed
  | error error c =>
    obtain ⟨d, entered, -, -⟩ := enter_run .idle c
    cases ((tryCatch_of_error started).trans (bind_of_ok entered)).symm.trans failed
    exact noMismatch_start same c started

theorem noMismatch_capture (limit : Nat) (same : p.geometry = a.geometry) :
    NoMismatch (capture limit p) a :=
  (noMismatch_start same).bind fun _ => noMismatch_wait limit p.settings

end Loading

end Analyser

/-- The program that comes with the call. -/
def Call.program? : Call → Option Program
  | idle (.compileAndLoad p) | idle (.loadProgram p) | idle (.start p) | idle (.capture p)
  | idle (.arm p) => some p
  | _ => none

namespace Handle

open Session Analyser

variable {σ : Type}

theorem settle_noMismatch {α : Type} {a : Analyser σ} {session : Session σ α}
    (spared : NoMismatch session a) (success : α → Analyser σ → Answer × Handle σ)
    (failure : Analyser σ → Handle σ) : (settle a session success failure).1 ≠
      .error (.failed (.trigger .geometryMismatch)) := by
  cases run : session a with
  | ok value b =>
    rw [settle_of_ok run]
    exact nofun
  | error error b =>
    rw [settle_of_error run]
    rintro ⟨⟩
    exact spared b run

variable [Link σ]

theorem noMismatch_idleSession (horizon : Horizon) {a : Analyser σ} {call : IdleCall}
    (fits : ∀ p ∈ (Call.idle call).program?, p.geometry = a.geometry) :
    NoMismatch (idleSession horizon call) a := by
  cases call with
  | version | geometry | transferUnit | renew => rintro b ⟨⟩
  | compileAndLoad p => exact (noMismatch_compileAndLoad (fits p rfl)).seqRight fun _ => .pure _
  | loadProgram p => exact (noMismatch_loadProgram (fits p rfl)).seqRight fun _ => .pure _
  | writeLength count => exact (noMismatch_writeCount _ _ count a).seqRight fun _ => .pure _
  | writePreTrigger count => exact (noMismatch_writeCount _ _ count a).seqRight fun _ => .pure _
  | writeControl control => exact (noMismatch_writeControl control a).seqRight fun _ => .pure _
  | readStatus => exact (noMismatch_readStatus a).map
  | readVersion => exact (noMismatch_requestByte _ _ a).map
  | tryReadVersion => exact (noMismatch_tryReadVersion a).map
  | readGeometry => exact (noMismatch_readGeometry a).map
  | start p => exact (noMismatch_start (fits p rfl)).seqRight fun _ => .pure _
  | pollUntilDone => exact (noMismatch_pollUntilDone _ none a).bind fun _ _ => .pure _
  | readSamples count => exact (noMismatch_readSamples count a).map
  | capture p =>
    refine (noMismatch_capture _ (fits p rfl)).bind fun reading? b => ?_
    split
    · exact .pure _
    · exact .pure _
  | arm p => exact (noMismatch_arm (fits p rfl)).seqRight fun _ => .pure _

/-- A call is not refused for its program if that is for the geometry of the
analyser. -/
theorem perform_noMismatch (horizon : Horizon) {h : Handle σ} {call : Call}
    (fits : ∀ p ∈ call.program?, p.geometry = h.analyser.geometry) :
    (perform horizon h call).1 ≠ .error (.failed (.trigger .geometryMismatch)) := by
  cases h with
  | idle a =>
    cases call with
    | idle call => exact settle_noMismatch (noMismatch_idleSession horizon fits) _ _
    | armed call => exact nofun
  | armed a settings =>
    cases call with
    | idle call => exact nofun
    | armed call =>
      cases call with
      | poll => exact settle_noMismatch (noMismatch_poll a) _ _
      | tryResult => exact settle_noMismatch (noMismatch_tryResult settings a) _ _
      | wait => exact settle_noMismatch (noMismatch_wait _ settings a) _ _
      | waitTimeout timeout =>
        exact settle_noMismatch (noMismatch_waitTimeout _ timeout _ settings a) _ _
      | cancel => exact settle_noMismatch (noMismatch_cancel a) _ _
  | lost a => cases call <;> exact nofun

end Handle

end LogicCapture
