import LogicCapture.Proofs.Session.Transfers
import LogicCapture.Proofs.Session.Ways

/-!
# Sessions that retrace one another

All that a session hears of its link is what the transfers give. So with the transfers
of one run on record, the session goes the same way over any link that replays them:
`Session.Retraces`. Runs are retraced part by part, the record of the whole being the
records of the parts one after the other, and from sessions this goes on to calls and to
acquisitions.
-/

namespace LogicCapture

namespace Link

variable {σ τ : Type} [Link σ] [Link τ] {t u : σ} {made more : List Exchange}

theorem Replays.split (replayed : Replays t (made ++ more) u) :
    ∃ v, Replays t made v ∧ Replays v more u := by
  induction made generalizing t with
  | nil => exact ⟨t, .nil, replayed⟩
  | cons e made ih =>
    cases replayed with
    | sent bytes rest =>
      obtain ⟨v, first, last⟩ := ih rest
      exact ⟨v, .sent bytes first, last⟩
    | received asked rest =>
      obtain ⟨v, first, last⟩ := ih rest
      exact ⟨v, .received asked first, last⟩

/-- The links keep to one and the same transfer unit. -/
def SameUnit (r : Recorded σ) (t : τ) : Prop := ∃ m, Steady m r.link ∧ Steady m t

/-- That, and the second link is this one. -/
def SameUnitAt (u : τ) (r : Recorded σ) (t : τ) : Prop := SameUnit r t ∧ t = u

end Link

open Link

namespace Session

variable {σ τ α β : Type} [Link σ] [Link τ]

/-- Over a link that replays the transfers of the first session the second one comes to
the same, and it leaves the link as the replay does. -/
def Retraces (x : Session (Recorded σ) α) (y : Session τ α) : Prop :=
  ∀ a, ∃ made, Extends a (after x a) made ∧
    ∀ b u, Alike SameUnit a b → Replays b.link made u → AlikeResults (SameUnitAt u) (x a) (y b)

variable {x : Session (Recorded σ) α} {y : Session τ α}

/-- A session without transfers. -/
theorem Retraces.quiet (same : ∀ a, (after x a).link = a.link)
    (agree : ∀ u : τ, Agree (SameUnitAt u) x y) : Retraces x y := by
  refine fun a => ⟨[], .nil (same a), fun b u alike replayed => ?_⟩
  cases replayed
  exact agree b.link a b (alike.imp ⟨alike.link, rfl⟩)

theorem Retraces.bind {f : α → Session (Recorded σ) β} {g : α → Session τ β}
    (first : Retraces x y) (second : ∀ value, Retraces (f value) (g value)) :
    Retraces (x >>= f) (y >>= g) := by
  intro a
  obtain ⟨made, extended, retraced⟩ := first a
  cases run : x a with
  | ok value a' =>
    obtain ⟨more, further, go_on⟩ := second value a'
    rw [after_of_ok run] at extended
    have whole : after (x >>= f) a = after (f value) a' := by rw [after, after, bind_of_ok run]
    refine ⟨made ++ more, whole ▸ extended.trans further, fun b u alike replayed => ?_⟩
    obtain ⟨v, before, behind⟩ := replayed.split
    obtain ⟨b', run', alike'⟩ := (run ▸ retraced b v alike before).of_ok
    obtain ⟨unit, rfl⟩ := alike'.link
    rw [bind_of_ok run, bind_of_ok run']
    exact go_on b' u (alike'.imp unit) behind
  | error error a' =>
    rw [after_of_error run] at extended
    have whole : after (x >>= f) a = a' := after_of_error (bind_of_error run)
    refine ⟨made, whole ▸ extended, fun b u alike replayed => ?_⟩
    obtain ⟨b', run', alike'⟩ := (run ▸ retraced b u alike replayed).of_error
    rw [bind_of_error run, bind_of_error run']
    exact .error error alike'

theorem Retraces.tryCatch {f : AnalyserError → Session (Recorded σ) α}
    {g : AnalyserError → Session τ α} (first : Retraces x y)
    (second : ∀ error, Retraces (f error) (g error)) :
    Retraces (tryCatch x f) (tryCatch y g) := by
  intro a
  obtain ⟨made, extended, retraced⟩ := first a
  cases run : x a with
  | ok value a' =>
    rw [after_of_ok run] at extended
    have whole : after (MonadExcept.tryCatch x f) a = a' := after_of_ok (tryCatch_of_ok run)
    refine ⟨made, whole ▸ extended, fun b u alike replayed => ?_⟩
    obtain ⟨b', run', alike'⟩ := (run ▸ retraced b u alike replayed).of_ok
    rw [tryCatch_of_ok run, tryCatch_of_ok run']
    exact .ok value alike'
  | error error a' =>
    obtain ⟨more, further, go_on⟩ := second error a'
    rw [after_of_error run] at extended
    have whole : after (MonadExcept.tryCatch x f) a = after (f error) a' := by
      rw [after, after, tryCatch_of_error run]
    refine ⟨made ++ more, whole ▸ extended.trans further, fun b u alike replayed => ?_⟩
    obtain ⟨v, before, behind⟩ := replayed.split
    obtain ⟨b', run', alike'⟩ := (run ▸ retraced b v alike before).of_error
    obtain ⟨unit, rfl⟩ := alike'.link
    rw [tryCatch_of_error run, tryCatch_of_error run']
    exact go_on b' u (alike'.imp unit) behind

/-- One transfer, which is replayed alone. -/
theorem Retraces.during {phase : Phase} {transfer : Recorded σ → Transfer (Recorded σ) α}
    {transfer' : τ → Transfer τ α} (exchange : Except LinkError α → Exchange)
    (extended : ∀ (a : Analyser (Recorded σ)) log,
      Extends a { a with link := (transfer a.link).link, log } [exchange (transfer a.link).result])
    (replays : ∀ {t u : τ} {result : Except LinkError α},
      Replays t [exchange result] u → (transfer' t).result = result ∧ (transfer' t).link = u) :
    Retraces (Analyser.during phase transfer) (Analyser.during phase transfer') := by
  intro a
  refine ⟨[exchange (transfer a.link).result], ?_, fun b u alike replayed => ?_⟩
  · rw [Analyser.after_during]
    exact extended a _
  · obtain ⟨m, unit, unit'⟩ := alike.link
    have steady : Steady m (transfer a.link).link.link :=
      unit.reaches (extended a []).replayed.reaches
    have steady' : Steady m u := unit'.reaches replayed.reaches
    obtain ⟨results, rfl⟩ := replays replayed
    cases result : (transfer a.link).result with
    | ok value =>
      rw [Analyser.during_of_ok result, Analyser.during_of_ok (results.trans result)]
      exact .ok value ⟨⟨⟨m, steady, steady'⟩, rfl⟩, alike.version, alike.geometry, alike.stage⟩
    | error cause =>
      rw [Analyser.during_of_error result, Analyser.during_of_error (results.trans result)]
      exact .error _ ⟨⟨⟨m, steady, steady'⟩, rfl⟩, alike.version, alike.geometry, alike.stage⟩

/-- Every session retraces itself. -/
theorem retraces_corresponds :
    Correspondence (fun {α} (x : Session (Recorded σ) α) (y : Session τ α) => Retraces x y) where
  pure value := .quiet (fun _ => rfl) fun _ => .pure value
  throw error := .quiet (fun _ => rfl) fun _ => .throw error
  bind := .bind
  tryCatch := .tryCatch
  noteAll lines := .quiet (fun _ => rfl) fun _ => Analyser.noteAll_agree lines
  enter stage := .quiet (fun a => by rw [Analyser.after_enter]; split <;> rfl) fun _ =>
    Analyser.enter_agree stage
  version := .quiet (fun _ => rfl) fun _ => Analyser.version_agree
  geometry := .quiet (fun _ => rfl) fun _ => Analyser.geometry_agree
  setVersion version := .quiet (fun _ => rfl) fun _ => Analyser.setVersion_agree version
  setGeometry geometry := .quiet (fun _ => rfl) fun _ => Analyser.setGeometry_agree geometry
  renew := .quiet (fun _ => rfl) fun _ => Analyser.renew_agree
  transferUnit := .quiet (fun _ => rfl) fun _ _ _ alike => by
    obtain ⟨⟨m, unit, unit'⟩, -⟩ := alike.link
    exact .ok_of_eq (unit.unit_eq.trans unit'.unit_eq.symm) alike
  send phase bytes := .during (.sent bytes) (fun _ _ => ⟨rfl, .sent bytes .nil⟩) fun replayed => by
    cases replayed with
    | sent _ rest =>
      cases rest
      exact ⟨rfl, rfl⟩
  receive phase length := by
    refine .during (.received length) (fun _ _ => ⟨rfl, .received length .nil⟩) fun replayed => ?_
    cases replayed with
    | received _ rest =>
      cases rest
      exact ⟨rfl, rfl⟩

end Session

/-! ## Handles that are alike -/

namespace Handle

variable {σ τ : Type}

/-- What is done with a handle: it is answered, and there is a handle after it. -/
abbrev Run (σ : Type) := Handle σ → Except Refusal Answer × Handle σ

/-- The handles are of one kind, and the analysers behind them are alike. -/
inductive Alike (rel : σ → τ → Prop) : Handle σ → Handle τ → Prop
  | idle {a : Analyser σ} {b : Analyser τ} : Session.Alike rel a b → Alike rel (.idle a) (.idle b)
  | armed {a : Analyser σ} {b : Analyser τ} (settings : Settings) :
    Session.Alike rel a b → Alike rel (.armed a settings) (.armed b settings)
  | lost {a : Analyser σ} {b : Analyser τ} : Session.Alike rel a b → Alike rel (.lost a) (.lost b)

theorem Alike.analyser {rel : σ → τ → Prop} {h : Handle σ} {h' : Handle τ}
    (alike : Alike rel h h') : Session.Alike rel h.analyser h'.analyser := by
  cases alike with
  | idle alike => exact alike
  | armed _ alike => exact alike
  | lost alike => exact alike

theorem Alike.imp {rel rel' : σ → τ → Prop} {h : Handle σ} {h' : Handle τ}
    (alike : Alike rel h h') (link : rel' h.analyser.link h'.analyser.link) :
    Alike rel' h h' := by
  cases alike with
  | idle alike => exact .idle (alike.imp link)
  | armed settings alike => exact .armed settings (alike.imp link)
  | lost alike => exact .lost (alike.imp link)

/-! ## Acquisitions step by step -/

section Steps

variable [Link σ]

/-- What comes after arming. -/
def afterArming (go : Run σ) : Except Refusal Answer → Run σ
  | .ok _, next => go next
  | refused, next => (refused, next)

theorem armThen_eq (horizon : Horizon) (p : Program) (h : Handle σ) (go : Run σ) :
    armThen horizon p h go = afterArming go (perform horizon h (.idle (.arm p))).1
      (perform horizon h (.idle (.arm p))).2 := by
  rw [armThen]
  generalize perform horizon h (.idle (.arm p)) = armed
  obtain ⟨answer, next⟩ := armed
  cases answer <;> rfl

/-- What comes after asking once for the result. -/
def afterAsking (horizon : Horizon) (limit : Nat) : Except Refusal Answer → Run σ
  | .ok .pending, next => retry horizon limit next
  | ended, next => (ended, next)

theorem retry_eq (horizon : Horizon) (limit : Nat) (h : Handle σ) :
    retry horizon (limit + 1) h = afterAsking horizon limit
      (perform horizon h (.armed .tryResult)).1 (perform horizon h (.armed .tryResult)).2 := by
  rw [retry]
  generalize perform horizon h (.armed .tryResult) = asked
  obtain ⟨answer, next⟩ := asked
  cases answer with
  | ok answer => cases answer <;> rfl
  | error refusal => rfl

end Steps

/-! ## Calls that retrace one another -/

open Session

/-- Both put the analyser into handles of one kind. -/
def SamePlace (place : Analyser (Recorded σ) → Handle (Recorded σ))
    (place' : Analyser τ → Handle τ) : Prop :=
  ∀ a, (place a).analyser = a ∧
    ∀ (rel : Recorded σ → τ → Prop) b, Session.Alike rel a b → Alike rel (place a) (place' b)

theorem samePlace_idle : SamePlace (idle : Analyser (Recorded σ) → _) (idle : Analyser τ → _) :=
  fun _ => ⟨rfl, fun _ _ alike => .idle alike⟩

theorem samePlace_armed (settings : Settings) :
    SamePlace (armed · settings : Analyser (Recorded σ) → _)
      (armed · settings : Analyser τ → _) :=
  fun _ => ⟨rfl, fun _ _ alike => .armed settings alike⟩

theorem samePlace_lost : SamePlace (lost : Analyser (Recorded σ) → _) (lost : Analyser τ → _) :=
  fun _ => ⟨rfl, fun _ _ alike => .lost alike⟩

theorem samePlace_conclude (settings : Settings) (reading? : Option Reading) :
    SamePlace (fun a : Analyser (Recorded σ) => (conclude settings reading? a).2)
      fun b : Analyser τ => (conclude settings reading? b).2 := by
  cases reading? with
  | none => exact samePlace_armed settings
  | some reading => exact samePlace_idle

theorem conclude_answers (settings : Settings) (reading? : Option Reading) (a : Analyser σ)
    (b : Analyser τ) : (conclude settings reading? b).1 = (conclude settings reading? a).1 := by
  cases reading? <;> rfl

variable [Link σ] [Link τ]

/-- As for sessions, with a handle coming out. -/
def RetracesFrom (run : Analyser (Recorded σ) → Except Refusal Answer × Handle (Recorded σ))
    (run' : Analyser τ → Except Refusal Answer × Handle τ) : Prop :=
  ∀ a, ∃ made, Extends a (run a).2.analyser made ∧
    ∀ b u, Session.Alike SameUnit a b → Replays b.link made u →
      (run' b).1 = (run a).1 ∧ Alike (SameUnitAt u) (run a).2 (run' b).2

/-- As for sessions, with a handle going in as well. -/
def Retraces (run : Run (Recorded σ)) (run' : Run τ) : Prop :=
  ∀ h, ∃ made, Extends h.analyser (run h).2.analyser made ∧
    ∀ h' u, Alike SameUnit h h' → Replays h'.analyser.link made u →
      (run' h').1 = (run h).1 ∧ Alike (SameUnitAt u) (run h).2 (run' h').2

theorem retraces_settle {α : Type} {x : Session (Recorded σ) α} {y : Session τ α}
    {success : α → Analyser (Recorded σ) → Answer × Handle (Recorded σ)}
    {success' : α → Analyser τ → Answer × Handle τ}
    {failure : Analyser (Recorded σ) → Handle (Recorded σ)} {failure' : Analyser τ → Handle τ}
    (retraces : Session.Retraces x y)
    (answers : ∀ value a b, (success' value b).1 = (success value a).1)
    (succeeds : ∀ value, SamePlace (fun a => (success value a).2) fun b => (success' value b).2)
    (fails : SamePlace failure failure') :
    RetracesFrom (settle · x success failure) (settle · y success' failure') := by
  intro a
  obtain ⟨made, extended, retraced⟩ := retraces a
  have same : (settle a x success failure).2.analyser = after x a :=
    analyser_settle (fun value b => (succeeds value b).1) fun b => (fails b).1
  refine ⟨made, same ▸ extended, fun b u alike replayed => ?_⟩
  have results := retraced b u alike replayed
  cases run : x a with
  | ok value a' =>
    obtain ⟨b', run', alike'⟩ := (run ▸ results).of_ok
    dsimp only
    rw [settle_of_ok run, settle_of_ok run', answers value a' b']
    exact ⟨rfl, (succeeds value a').2 _ b' alike'⟩
  | error error a' =>
    obtain ⟨b', run', alike'⟩ := (run ▸ results).of_error
    dsimp only
    rw [settle_of_error run, settle_of_error run']
    exact ⟨rfl, (fails a').2 _ b' alike'⟩

theorem performIdle_retraces (horizon : Horizon) (call : IdleCall) :
    RetracesFrom (fun a : Analyser (Recorded σ) => performIdle horizon a call)
      fun b : Analyser τ => performIdle horizon b call := by
  refine retraces_settle (retraces_corresponds.idleSession horizon call) ?_ ?_ samePlace_idle
  · intro answer a b
    cases call <;> rfl
  · intro answer
    cases call with
    | arm p => exact samePlace_armed p.settings
    | _ => exact samePlace_idle

theorem performArmed_retraces (horizon : Horizon) (settings : Settings) (call : ArmedCall) :
    RetracesFrom (fun a : Analyser (Recorded σ) => performArmed horizon a settings call)
      fun b : Analyser τ => performArmed horizon b settings call := by
  cases call with
  | poll =>
    refine retraces_settle retraces_corresponds.poll (fun _ _ _ => rfl) ?_
      (samePlace_armed settings)
    exact fun _ => samePlace_armed settings
  | tryResult =>
    exact retraces_settle (retraces_corresponds.tryResult settings) (conclude_answers settings)
      (samePlace_conclude settings) samePlace_lost
  | wait =>
    exact retraces_settle (retraces_corresponds.wait horizon.polls settings)
      (conclude_answers settings) (samePlace_conclude settings) samePlace_lost
  | waitTimeout timeout =>
    exact retraces_settle
      (retraces_corresponds.waitTimeout horizon.elapsed timeout horizon.polls settings)
      (conclude_answers settings) (samePlace_conclude settings) (samePlace_armed settings)
  | cancel =>
    refine retraces_settle retraces_corresponds.cancel (fun _ _ _ => rfl) ?_ samePlace_lost
    exact fun _ => samePlace_idle

/-- Nothing is done but to put the analyser into a handle. -/
theorem RetracesFrom.quiet {place : Analyser (Recorded σ) → Handle (Recorded σ)}
    {place' : Analyser τ → Handle τ} (same : SamePlace place place')
    (answer : Except Refusal Answer) :
    RetracesFrom (fun a => (answer, place a)) fun b => (answer, place' b) := by
  intro a
  refine ⟨[], .nil (congrArg Analyser.link (same a).1), fun b u alike replayed => ⟨rfl, ?_⟩⟩
  cases replayed
  exact (same a).2 _ b (alike.imp ⟨alike.link, rfl⟩)

theorem Retraces.of_kinds {run : Run (Recorded σ)} {run' : Run τ}
    (idle : RetracesFrom (fun a => run (.idle a)) fun b => run' (.idle b))
    (armed : ∀ settings,
      RetracesFrom (fun a => run (.armed a settings)) fun b => run' (.armed b settings))
    (lost : RetracesFrom (fun a => run (.lost a)) fun b => run' (.lost b)) :
    Retraces run run' := by
  intro h
  cases h with
  | idle a =>
    obtain ⟨made, extended, retraced⟩ := idle a
    refine ⟨made, extended, fun h' u alike replayed => ?_⟩
    cases alike with
    | idle alike => exact retraced _ u alike replayed
  | armed a settings =>
    obtain ⟨made, extended, retraced⟩ := armed settings a
    refine ⟨made, extended, fun h' u alike replayed => ?_⟩
    cases alike with
    | armed _ alike => exact retraced _ u alike replayed
  | lost a =>
    obtain ⟨made, extended, retraced⟩ := lost a
    refine ⟨made, extended, fun h' u alike replayed => ?_⟩
    cases alike with
    | lost alike => exact retraced _ u alike replayed

/-- Every call retraces itself. -/
theorem perform_retraces (horizon : Horizon) (call : Call) :
    Retraces (fun h : Handle (Recorded σ) => perform horizon h call)
      fun h : Handle τ => perform horizon h call := by
  cases call with
  | idle call =>
    exact .of_kinds (performIdle_retraces horizon call)
      (fun settings => .quiet (samePlace_armed settings) _) (.quiet samePlace_lost _)
  | armed call =>
    exact .of_kinds (.quiet samePlace_idle _)
      (fun settings => performArmed_retraces horizon settings call) (.quiet samePlace_lost _)

/-! ## Acquisitions that retrace one another -/

/-- Handles that are given back as they were. -/
theorem Retraces.pure (answer : Except Refusal Answer) :
    Retraces (fun h : Handle (Recorded σ) => (answer, h)) fun h : Handle τ => (answer, h) :=
  .of_kinds (.quiet samePlace_idle answer)
    (fun settings => .quiet (samePlace_armed settings) answer) (.quiet samePlace_lost answer)

/-- One thing is done after the other; the answer to the first decides on the second. -/
theorem Retraces.bind {run both : Run (Recorded σ)} {run' both' : Run τ}
    {go : Except Refusal Answer → Run (Recorded σ)} {go' : Except Refusal Answer → Run τ}
    (first : Retraces run run') (second : ∀ answer, Retraces (go answer) (go' answer))
    (eq : ∀ h, both h = go (run h).1 (run h).2)
    (eq' : ∀ h, both' h = go' (run' h).1 (run' h).2) : Retraces both both' := by
  intro h
  obtain ⟨made, extended, retraced⟩ := first h
  obtain ⟨more, further, go_on⟩ := second (run h).1 (run h).2
  refine ⟨made ++ more, eq h ▸ extended.trans further, fun h' u alike replayed => ?_⟩
  obtain ⟨v, before, behind⟩ := replayed.split
  obtain ⟨answers, alike'⟩ := retraced h' v alike before
  obtain ⟨unit, rfl⟩ := alike'.analyser.link
  rw [eq, eq', answers]
  exact go_on _ u (alike'.imp unit) behind

theorem armThen_retraces (horizon : Horizon) (p : Program)
    {go : Run (Recorded σ)} {go' : Run τ} (goes : Retraces go go') :
    Retraces (armThen horizon p · go) (armThen horizon p · go') := by
  refine (perform_retraces horizon (.idle (.arm p))).bind (fun answer => ?_)
    (armThen_eq horizon p · go) (armThen_eq horizon p · go')
  cases answer with
  | ok => exact goes
  | error refusal => exact .pure _

theorem retry_retraces (horizon : Horizon) (limit : Nat) :
    Retraces (fun h : Handle (Recorded σ) => retry horizon limit h)
      fun h : Handle τ => retry horizon limit h := by
  induction limit with
  | zero => exact .pure _
  | succ limit ih =>
    refine (perform_retraces horizon (.armed .tryResult)).bind (fun answer => ?_)
      (retry_eq horizon limit) (retry_eq horizon limit)
    cases answer with
    | ok answer =>
      cases answer with
      | pending => exact ih
      | _ => exact .pure _
    | error refusal => exact .pure _

/-- Every acquisition retraces itself. -/
theorem acquire_retraces (horizon : Horizon) (p : Program) (way : Way) :
    Retraces (fun h : Handle (Recorded σ) => acquire horizon p h way)
      fun h : Handle τ => acquire horizon p h way := by
  cases way with
  | capture => exact perform_retraces horizon _
  | wait => exact armThen_retraces horizon p (perform_retraces horizon _)
  | retry => exact armThen_retraces horizon p (retry_retraces horizon _)
  | waitTimeout timeout => exact armThen_retraces horizon p (perform_retraces horizon _)

end Handle

end LogicCapture
