import LogicCapture.Proofs.Session.Agreement
import LogicCapture.Proofs.Session.Readings

/-!
# Ways to run an acquisition

An acquisition is run by one call, or it is armed and then waited for, asked for
its result again and again, or waited for under a timeout. After the start these
are loops over the same poll, which agree in the sense of `Session.Agree`. A loop
that is cut short by the limit on its polls says that it is unfinished; otherwise
more polls make no difference, so that it can be said what a run comes to.
-/

namespace LogicCapture

/-! ## Limits on the number of polls -/

namespace Session

variable {σ α β : Type}

/-- Cut short, the session comes to the unfinished value; else to what the other
one comes to. -/
def Approximates (unfinished : α) (x y : Session σ α) : Prop :=
  ∀ a, (∃ b, x a = .ok unfinished b) ∨ y a = x a

theorem Approximates.unfinished (value : α) (y : Session σ α) :
    Approximates value (pure value) y :=
  fun a => .inl ⟨a, rfl⟩

theorem Approximates.refl (value : α) (x : Session σ α) : Approximates value x x :=
  fun _ => .inr rfl

theorem Approximates.bind_right {unfinished : β} {f g : α → Session σ β} (x : Session σ α)
    (rest : ∀ value, Approximates unfinished (f value) (g value)) :
    Approximates unfinished (x >>= f) (x >>= g) := by
  intro a
  cases run : x a with
  | ok value b =>
    rw [bind_of_ok run, bind_of_ok run]
    exact rest value b
  | error error b => exact .inr (by rw [bind_of_error run, bind_of_error run])

theorem Approximates.bind_left {unfinished : α} {unfinished' : β} {x y : Session σ α}
    {f : α → Session σ β} (approximates : Approximates unfinished x y)
    (stays : f unfinished = pure unfinished') : Approximates unfinished' (x >>= f) (y >>= f) := by
  intro a
  rcases approximates a with ⟨b, short⟩ | same
  · exact .inl ⟨b, by rw [bind_of_ok short, stays]; rfl⟩
  · refine .inr ?_
    cases run : x a with
    | ok value b => rw [bind_of_ok run, bind_of_ok (same.trans run)]
    | error error b => rw [bind_of_error run, bind_of_error (same.trans run)]

end Session

namespace Analyser

open Session

variable {σ τ : Type} [Link σ] {limit more : Nat}

theorem pollUntilDone_approximates (before : Option Status) (le : limit ≤ more) :
    Approximates false (pollUntilDone limit before : Session σ Bool)
      (pollUntilDone more before) := by
  induction limit generalizing before more with
  | zero => exact .unfinished false _
  | succ limit ih =>
    obtain ⟨more, rfl⟩ := Nat.exists_eq_add_of_le' (Nat.le_trans (Nat.succ_pos limit) le)
    refine .bind_right poll fun status => ?_
    have rest : Approximates false
        (if status = .done then pure true else pollUntilDone limit (some status) : Session σ Bool)
        (if status = .done then pure true else pollUntilDone more (some status)) := by
      split
      · exact .refl false _
      · exact ih (some status) (Nat.le_of_succ_le_succ le)
    dsimp only
    split
    · exact rest
    · exact .bind_right _ fun _ => rest

theorem pollInTime_approximates (elapsed : Nat → Nat) (timeout look : Nat) (le : limit ≤ more) :
    Approximates false (pollInTime elapsed timeout limit look : Session σ Bool)
      (pollInTime elapsed timeout more look) := by
  induction limit generalizing look more with
  | zero => exact .unfinished false _
  | succ limit ih =>
    obtain ⟨more, rfl⟩ := Nat.exists_eq_add_of_le' (Nat.le_trans (Nat.succ_pos limit) le)
    refine .bind_right poll fun status => ?_
    split
    · exact .refl false _
    · dsimp only
      split
      · exact .refl false _
      · exact ih (look + 1) (Nat.le_of_succ_le_succ le)

/-! ## Asking again and again -/

/-- Asks for the result until it is there, `limit` times at most. -/
def retryResult (settings : Settings) : (limit : Nat) → Session σ (Option Reading)
  | 0 => return none
  | limit + 1 => do
    match ← tryResult settings with
    | some reading => return some reading
    | none => retryResult settings limit

theorem retryResult_approximates (settings : Settings) (le : limit ≤ more) :
    Approximates none (retryResult settings limit : Session σ (Option Reading))
      (retryResult settings more) := by
  induction limit generalizing more with
  | zero => exact .unfinished none _
  | succ limit ih =>
    obtain ⟨more, rfl⟩ := Nat.exists_eq_add_of_le' (Nat.le_trans (Nat.succ_pos limit) le)
    refine .bind_right (tryResult settings) fun reading? => ?_
    cases reading? with
    | some reading => exact .refl none _
    | none => exact ih (Nat.le_of_succ_le_succ le)

/-- To ask again and again is to wait. -/
theorem retryResult_agree [Link τ] {rel : σ → τ → Prop} (congruence : Link.Congruence rel)
    (settings : Settings) (limit : Nat) (before : Option Status) :
    Agree rel (pollUntilDone limit before >>= readIfDone settings : Session σ (Option Reading))
      (retryResult settings limit : Session τ (Option Reading)) := by
  induction limit generalizing before with
  | zero => exact .pure none
  | succ limit ih =>
    -- one round of both loops: the one reads back after it, the other in it
    rw [pollUntilDone, retryResult, tryResult, bind_assoc, bind_assoc]
    refine (poll_agree congruence).bind fun status => ?_
    have rest : Agree rel
        ((if status = .done then pure true else pollUntilDone limit (some status)) >>=
          readIfDone settings : Session σ (Option Reading))
        ((if status = .done then some <$> readReading settings else pure none) >>= fun reading? =>
          match reading? with
          | some reading => return some reading
          | none => retryResult settings limit : Session τ (Option Reading)) := by
      split
      · rw [pure_bind, bind_map_left, readIfDone, if_pos rfl, map_eq_pure_bind]
        exact (readReading_agree congruence settings).bind fun reading => .pure (some reading)
      · rw [pure_bind]
        exact ih (some status)
    dsimp only
    split
    · exact rest
    · rw [bind_assoc]
      exact rest.note_left _

end Analyser

/-! ## Ways -/

namespace Handle

open Session Analyser

variable {σ : Type} [Link σ]

/-- Asks for the result until the answer is another than that it is pending,
`limit` times at most. -/
def retry (horizon : Horizon) : (limit : Nat) → Handle σ → Except Refusal Answer × Handle σ
  | 0, handle => (.ok .pending, handle)
  | limit + 1, handle =>
    match perform horizon handle (.armed .tryResult) with
    | (.ok .pending, next) => retry horizon limit next
    | ended => ended

/-- Ways to run an acquisition from an idle handle. -/
inductive Way where
  | capture
  | wait
  /-- Ask for the result again and again. -/
  | retry
  /-- Wait, but give up after so many nanoseconds. -/
  | waitTimeout (timeout : Nat)

/-- Arms the handle and goes on with the armed one, if there is one. -/
def armThen (horizon : Horizon) (p : Program) (h : Handle σ)
    (go : Handle σ → Except Refusal Answer × Handle σ) : Except Refusal Answer × Handle σ :=
  match perform horizon h (.idle (.arm p)) with
  | (.ok _, next) => go next
  | refused => refused

/-- Runs an acquisition. -/
def acquire (horizon : Horizon) (p : Program) (h : Handle σ) :
    Way → Except Refusal Answer × Handle σ
  | .capture => perform horizon h (.idle (.capture p))
  | .wait => armThen horizon p h fun next => perform horizon next (.armed .wait)
  | .retry => armThen horizon p h (retry horizon horizon.polls)
  | .waitTimeout timeout =>
    armThen horizon p h fun next => perform horizon next (.armed (.waitTimeout timeout))

namespace Way

/-- The session that goes on after the start. -/
def session (horizon : Horizon) (settings : Settings) : Way → Session σ (Option Reading)
  | capture | wait => Analyser.wait horizon.polls settings
  | retry => retryResult settings horizon.polls
  | waitTimeout timeout => Analyser.waitTimeout horizon.elapsed timeout horizon.polls settings

/-- What that session leaves if it fails. -/
def left (settings : Settings) : Way → Analyser σ → Handle σ
  | capture => .idle
  | wait | retry => .lost
  | waitTimeout _ => (.armed · settings)

/-- The answer and the handle if it does not fail. -/
def answer (settings : Settings) : Way → Option Reading → Analyser σ → Answer × Handle σ
  | capture, none, a => (.pending, .idle a)
  | capture, some reading, a => (.reading reading, .idle a)
  | _, reading?, a => conclude settings reading? a

end Way

variable {horizon : Horizon} {p : Program} {a b : Analyser σ}

theorem retry_armed (settings : Settings) (limit : Nat) (a : Analyser σ) :
    retry horizon limit (.armed a settings) =
      settle a (retryResult settings limit) (conclude settings) .lost := by
  induction limit generalizing a with
  | zero => rfl
  | succ limit ih =>
    rw [retry, perform, performArmed]
    cases run : tryResult settings a with
    | ok reading? b =>
      rw [settle_of_ok run]
      cases reading? with
      | some reading =>
        have ended : retryResult settings (limit + 1) a = .ok (some reading) b := bind_of_ok run
        exact (settle_of_ok ended _ _).symm
      | none =>
        have goes_on : retryResult settings (limit + 1) a = retryResult settings limit b :=
          bind_of_ok run
        rw [settle, goes_on]
        exact ih b
    | error error b =>
      have failed : retryResult settings (limit + 1) a = .error error b := bind_of_error run
      rw [settle_of_error run, settle_of_error failed]

theorem arm_of_start (started : start p a = .ok () b) :
    perform horizon (.idle a) (.idle (.arm p)) = (.ok .armed, .armed b p.settings) := by
  have armed : arm p a = .ok () b := tryCatch_of_ok started
  have run : idleSession horizon (.arm p) a = .ok .armed b := by
    rw [idleSession, seqRight_eq_bind, bind_of_ok armed]
    rfl
  rw [perform, performIdle, settle_of_ok run]

/-- An acquisition that could be started goes on as its way is. -/
theorem acquire_of_start (started : start p a = .ok () b) (way : Way) :
    acquire horizon p (.idle a) way =
      settle b (way.session horizon p.settings) (way.answer p.settings) (way.left p.settings) := by
  cases way with
  | capture =>
    have captured : Analyser.capture horizon.polls p a = Analyser.wait horizon.polls p.settings b :=
      bind_of_ok started
    rw [acquire, perform, performIdle, Way.session]
    cases run : Analyser.wait horizon.polls p.settings b with
    | ok reading? c =>
      rw [settle_of_ok run]
      have ended : idleSession horizon (.capture p) a =
          .ok (Way.capture.answer p.settings reading? c).1 c := by
        rw [idleSession, bind_of_ok (captured.trans run)]
        cases reading? <;> rfl
      rw [settle_of_ok ended]
      cases reading? <;> rfl
    | error error c =>
      have failed : idleSession horizon (.capture p) a = .error error c :=
        bind_of_error (captured.trans run)
      rw [settle_of_error run, settle_of_error failed]
      rfl
  | wait =>
    rw [acquire, armThen, arm_of_start started]
    rfl
  | retry =>
    rw [acquire, armThen, arm_of_start started]
    exact retry_armed p.settings horizon.polls b
  | waitTimeout timeout =>
    rw [acquire, armThen, arm_of_start started]
    rfl

/-- The same link, with the same record if it keeps one, and the same knowledge of
the analyser; the stages may differ. -/
structure SameLink (a b : Analyser σ) : Prop where
  link : b.link = a.link
  version : b.version = a.version
  geometry : b.geometry = a.geometry

theorem arm_of_start_error {error : AnalyserError} (failed : start p a = .error error b) :
    ∃ c, arm p a = .error error c ∧ SameLink b c ∧ c.stage = .idle := by
  have run : enter .idle b = .ok () (if b.stage = .idle then b
      else { b with stage := .idle, log := .stageChanged b.stage .idle :: b.log }) := rfl
  split at run
  · next idle =>
    exact ⟨b, (tryCatch_of_error failed).trans (bind_of_ok run), ⟨rfl, rfl, rfl⟩, idle⟩
  · exact ⟨_, (tryCatch_of_error failed).trans (bind_of_ok run), ⟨rfl, rfl, rfl⟩, rfl⟩

/-- An acquisition that could not be started fails in all ways; where it was to be
armed the stage is idle again. -/
theorem acquire_of_start_error {error : AnalyserError} (failed : start p a = .error error b)
    (way : Way) :
    ∃ c, (∀ horizon, acquire horizon p (.idle a) way = (.error (.failed error), .idle c)) ∧
      SameLink b c ∧ (way ≠ .capture → c.stage = .idle) := by
  obtain ⟨c, armed, same, idle⟩ := arm_of_start_error failed
  have refused : ∀ horizon, perform horizon (.idle a) (.idle (.arm p)) =
      (.error (.failed error), .idle c) := by
    intro horizon
    have run : idleSession horizon (.arm p) a = .error error c := by
      rw [idleSession, seqRight_eq_bind, bind_of_error armed]
    rw [perform, performIdle, settle_of_error run]
  have ended : ∀ horizon go,
      armThen horizon p (.idle a) go = (.error (.failed error), .idle c) := by
    intro horizon go
    rw [armThen, refused]
  cases way with
  | capture =>
    refine ⟨b, fun horizon => ?_, ⟨rfl, rfl, rfl⟩, fun other => absurd rfl other⟩
    have run : idleSession horizon (.capture p) a = .error error b :=
      bind_of_error (bind_of_error failed)
    rw [acquire, perform, performIdle, settle_of_error run]
  | wait => exact ⟨c, fun horizon => ended horizon _, same, fun _ => idle⟩
  | retry => exact ⟨c, fun horizon => ended horizon _, same, fun _ => idle⟩
  | waitTimeout timeout => exact ⟨c, fun horizon => ended horizon _, same, fun _ => idle⟩

/-! ## Agreement of the ways -/

/-- With enough polls the run comes to an end, and to this one. -/
def ComesTo (run : Nat → Except Refusal Answer × Handle σ)
    (outcome : Except Refusal Answer × Handle σ) : Prop :=
  outcome.1 ≠ .ok .pending ∧ ∃ enough, ∀ polls, enough ≤ polls → run polls = outcome

theorem Way.session_approximates (way : Way) (elapsed : Nat → Nat) (settings : Settings)
    {limit more : Nat} (le : limit ≤ more) :
    Approximates none (way.session ⟨elapsed, limit⟩ settings : Session σ (Option Reading))
      (way.session ⟨elapsed, more⟩ settings) := by
  have waits : Approximates none (Analyser.wait limit settings : Session σ (Option Reading))
      (Analyser.wait more settings) :=
    (pollUntilDone_approximates none le).bind_left rfl
  cases way with
  | capture => exact waits
  | wait => exact waits
  | retry => exact retryResult_approximates settings le
  | waitTimeout timeout => exact (pollInTime_approximates elapsed timeout 0 le).bind_left rfl

/-- A run that came to an end with some polls does so with more. -/
theorem comesTo_acquire {elapsed : Nat → Nat} {polls : Nat} {way : Way}
    {outcome : Except Refusal Answer × Handle σ}
    (run : acquire ⟨elapsed, polls⟩ p (.idle a) way = outcome) (ended : outcome.1 ≠ .ok .pending) :
    ComesTo (fun polls => acquire ⟨elapsed, polls⟩ p (.idle a) way) outcome := by
  subst run
  refine ⟨ended, polls, fun more le => ?_⟩
  cases started : start p a with
  | ok value b =>
    dsimp only
    rw [acquire_of_start started] at ended ⊢
    rw [acquire_of_start started]
    rcases way.session_approximates elapsed p.settings le b with ⟨c, short⟩ | same
    · rw [settle_of_ok short] at ended
      exact absurd (by cases way <;> rfl) ended
    · rw [settle, settle, same]
  | error error b =>
    obtain ⟨c, failed, -, -⟩ := acquire_of_start_error started way
    exact (failed _).trans (failed _).symm

/-- After the start all ways come to the same. -/
theorem Way.session_alike (way : Way) (horizon : Horizon) (settings : Settings) (a : Analyser σ)
    (in_time : ∀ timeout, way = .waitTimeout timeout → ∀ look, horizon.elapsed look < timeout) :
    AlikeResults Eq (Analyser.wait horizon.polls settings a) (way.session horizon settings a) := by
  have alike : Alike Eq a a := ⟨rfl, rfl, rfl, rfl⟩
  cases way with
  | capture => exact .refl _
  | wait => exact .refl _
  | retry => exact retryResult_agree Link.congruence_eq settings horizon.polls none a a alike
  | waitTimeout timeout =>
    have reads : ∀ found, Agree Eq (readIfDone settings found : Session σ (Option Reading))
        (readIfDone settings found) := by
      intro found
      cases found with
      | true => exact (readReading_agree Link.congruence_eq settings).map some
      | false => exact .pure none
    exact ((pollInTime_agree Link.congruence_eq (in_time timeout rfl) horizon.polls none 0).bind
      reads) a a alike

/-- How a capture ends, and next to it the same acquisition run this way. -/
inductive EndBeside (way : Way) (p : Program) (a : Analyser σ) :
    Except Refusal Answer → Handle σ → Handle σ → Prop
  | reading {b c : Analyser σ} (reading : Reading) : b.stage = .idle → c.stage = .idle →
    EndBeside way p a (.ok (.reading reading)) (.idle b) (.idle c)
  /-- It could not be started. -/
  | unstarted {b c d : Analyser σ} {error : AnalyserError} : start p a = .error error d →
    (way ≠ .capture → c.stage = .idle) →
      EndBeside way p a (.error (.failed error)) (.idle b) (.idle c)
  /-- It was started, but then failed. -/
  | failed {b c d : Analyser σ} (error : AnalyserError) : start p a = .ok () d →
    EndBeside way p a (.error (.failed error)) (.idle b) (way.left p.settings c)

theorem endBeside_of_start_error {error : AnalyserError} {answer : Except Refusal Answer}
    {h : Handle σ} (unstarted : start p a = .error error b) (way : Way)
    (captured : acquire horizon p (.idle a) .capture = (answer, h)) :
    ∃ h', acquire horizon p (.idle a) way = (answer, h') ∧ SameLink h.analyser h'.analyser ∧
      EndBeside way p a answer h h' := by
  obtain ⟨c, failed, same, -⟩ := acquire_of_start_error unstarted .capture
  obtain ⟨d, failed', same', idle⟩ := acquire_of_start_error unstarted way
  rw [failed] at captured
  cases captured
  have links : SameLink c d := ⟨same'.link.trans same.link.symm,
    same'.version.trans same.version.symm, same'.geometry.trans same.geometry.symm⟩
  exact ⟨.idle d, failed' horizon, links, .unstarted unstarted idle⟩

theorem endBeside_of_start {a b : Analyser (Recorded σ)} {answer : Except Refusal Answer}
    {h : Handle (Recorded σ)} (started : start p a = .ok () b) (way : Way)
    (in_time : ∀ timeout, way = .waitTimeout timeout → ∀ look, horizon.elapsed look < timeout)
    (captured : acquire horizon p (.idle a) .capture = (answer, h))
    (ended : answer ≠ .ok .pending) :
    ∃ h', acquire horizon p (.idle a) way = (answer, h') ∧ SameLink h.analyser h'.analyser ∧
      EndBeside way p a answer h h' := by
  have results := way.session_alike horizon p.settings b in_time
  rw [acquire_of_start started, Way.session] at captured
  generalize run : Analyser.wait horizon.polls p.settings b = result at results
  generalize run' : way.session horizon p.settings b = result' at results
  cases results with
  | @ok c d reading? alike =>
    rw [settle_of_ok run] at captured
    cases reading? with
    | none =>
      cases captured
      exact absurd rfl ended
    | some reading =>
      cases captured
      have idle : c.stage = .idle := by
        obtain ⟨made, -, concludes⟩ := (wait_concludes horizon.polls p.settings b).ok run
        exact (concludes reading rfl).1
      have acquired : acquire horizon p (.idle a) way = (.ok (.reading reading), .idle d) := by
        rw [acquire_of_start started, settle_of_ok run']
        cases way <;> rfl
      exact ⟨.idle d, acquired, ⟨alike.link.symm, alike.version.symm, alike.geometry.symm⟩,
        .reading reading idle (alike.stage.symm.trans idle)⟩
  | @error c d error alike =>
    rw [settle_of_error run] at captured
    cases captured
    have acquired : acquire horizon p (.idle a) way =
        (.error (.failed error), way.left p.settings d) := by
      rw [acquire_of_start started, settle_of_error run']
    have left : (way.left p.settings d).analyser = d := by cases way <;> rfl
    refine ⟨_, acquired, ?_, .failed error started⟩
    rw [left]
    exact ⟨alike.link.symm, alike.version.symm, alike.geometry.symm⟩

/-- All ways of running an acquisition agree. If a capture comes to an end then so
does an acquisition that is armed and waited for, asked for its result again and
again, or waited for under a timeout that is not reached. The answer is the same
and so are the transfers. With a reading the handles are idle; after an error they
differ as the ways do. -/
theorem ways_agree {σ : Type} [Link σ] {p : Program} {a : Analyser (Recorded σ)}
    {elapsed : Nat → Nat} {answer : Except Refusal Answer} {h : Handle (Recorded σ)}
    (captures : ComesTo (fun polls => acquire ⟨elapsed, polls⟩ p (.idle a) .capture) (answer, h))
    (way : Way)
    (in_time : ∀ timeout, way = .waitTimeout timeout → ∀ look, elapsed look < timeout) :
    ∃ h', ComesTo (fun polls => acquire ⟨elapsed, polls⟩ p (.idle a) way) (answer, h') ∧
      record h' = record h ∧ SameLink h.analyser h'.analyser ∧ EndBeside way p a answer h h' := by
  obtain ⟨ended, enough, all⟩ := captures
  have captured := all enough (Nat.le_refl enough)
  have beside : ∃ h', acquire ⟨elapsed, enough⟩ p (.idle a) way = (answer, h') ∧
      SameLink h.analyser h'.analyser ∧ EndBeside way p a answer h h' := by
    cases started : start p a with
    | ok value b => exact endBeside_of_start started way in_time captured ended
    | error error b => exact endBeside_of_start_error started way captured
  obtain ⟨h', acquired, same, beside⟩ := beside
  exact ⟨h', comesTo_acquire acquired ended, congrArg Recorded.exchanges same.link, same, beside⟩

/-- An analyser that is done at the third look. -/
def thirdTime : Analyser (Recorded Script) where
  geometry := twoSamples.geometry
  link := ⟨{ unit := 64, replies := [.bytes [2], .bytes [3], .bytes [4],
    .bytes [0x34, 0x12, 0xCD, 0xAB]] }, []⟩

/-- An acquisition on it, while no time passes. -/
def thirdTimeRun (way : Way) (polls : Nat) : Except Refusal Answer × Handle (Recorded Script) :=
  acquire ⟨fun _ => 0, polls⟩ twoSamples (.idle thirdTime) way

/-- The timeout is not reached, and makes no difference. -/
theorem ways_agree_thirdTime :
    let answer : Except Refusal Answer := .ok (.reading ⟨[0x1234, 0xABCD], .full, 0⟩)
    ComesTo (thirdTimeRun .capture) (answer, (thirdTimeRun .capture 3).2) ∧
      (∀ timeout, Way.waitTimeout 1 = .waitTimeout timeout → ∀ _ : Nat, 0 < timeout) ∧
      ∃ h', ComesTo (thirdTimeRun (.waitTimeout 1)) (answer, h') ∧
        record h' = record (thirdTimeRun .capture 3).2 := by
  intro answer
  have answered : (thirdTimeRun .capture 3).1 = .ok (.reading ⟨[0x1234, 0xABCD], .full, 0⟩) := by
    decide +kernel
  have captures : ComesTo (thirdTimeRun .capture) (answer, (thirdTimeRun .capture 3).2) := by
    refine comesTo_acquire (Prod.ext answered rfl) fun pending => ?_
    cases pending
  have in_time : ∀ timeout, Way.waitTimeout 1 = .waitTimeout timeout →
      ∀ _ : Nat, 0 < timeout := by
    intro timeout same _
    cases same
    exact Nat.one_pos
  obtain ⟨h', comes, records, -⟩ := ways_agree captures (.waitTimeout 1) in_time
  exact ⟨captures, in_time, h', comes, records⟩

end Handle

end LogicCapture
