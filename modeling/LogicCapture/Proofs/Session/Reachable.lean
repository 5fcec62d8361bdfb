import LogicCapture.Link.Recorded
import LogicCapture.Proofs.Session.Runs

/-!
# Reachable handles

A handle starts as a link that was just wrapped, or one that was probed, and
goes on with any calls in any order. The record of its link begins with the
first transfer, so an invariant of the link that every session keeps says
something of all transfers ever made.
-/

namespace LogicCapture

namespace Handle

open Session

variable {σ : Type}

/-! ## Calls as sessions -/

theorem settle_of_ok {α : Type} {a b : Analyser σ} {session : Session σ α} {value : α}
    (run : session a = .ok value b) (success : α → Analyser σ → Answer × Handle σ)
    (failure : Analyser σ → Handle σ) :
    settle a session success failure = (.ok (success value b).1, (success value b).2) := by
  rw [settle, run]

theorem settle_of_error {α : Type} {a b : Analyser σ} {session : Session σ α}
    {error : AnalyserError} (run : session a = .error error b)
    (success : α → Analyser σ → Answer × Handle σ) (failure : Analyser σ → Handle σ) :
    settle a session success failure = (.error (.failed error), failure b) := by
  rw [settle, run]

/-- What the outcomes of a session have in common. -/
theorem settle_induction {α : Type} {a : Analyser σ} {session : Session σ α}
    {success : α → Analyser σ → Answer × Handle σ} {failure : Analyser σ → Handle σ}
    {motive : Handle σ → Prop} (ok : ∀ value b, motive (success value b).2)
    (error : ∀ b, motive (failure b)) : motive (settle a session success failure).2 := by
  cases run : session a with
  | ok value b =>
    rw [settle_of_ok run]
    exact ok value b
  | error e b =>
    rw [settle_of_error run]
    exact error b

theorem analyser_settle {α : Type} {a : Analyser σ} {session : Session σ α}
    {success : α → Analyser σ → Answer × Handle σ} {failure : Analyser σ → Handle σ}
    (ok : ∀ value b, (success value b).2.analyser = b) (error : ∀ b, (failure b).analyser = b) :
    (settle a session success failure).2.analyser = after session a := by
  unfold settle after
  cases session a with
  | ok value b => exact ok value b
  | error e b => exact error b

theorem analyser_conclude (settings : Settings) (reading? : Option Reading) (a : Analyser σ) :
    (conclude settings reading? a).2.analyser = a := by
  cases reading? with
  | none => rfl
  | some reading => rfl

variable [Link σ] {inv : Analyser σ → Prop}

theorem analyser_performIdle (horizon : Horizon) (a : Analyser σ) (call : IdleCall) :
    (performIdle horizon a call).2.analyser = after (idleSession horizon call) a := by
  refine analyser_settle (fun answer b => ?_) fun b => rfl
  cases call <;> rfl

/-- What an armed call does to the analyser. -/
def armedSession (horizon : Horizon) (settings : Settings) : ArmedCall → Session σ Unit
  | .poll => (fun _ => ()) <$> Analyser.poll
  | .tryResult => (fun _ => ()) <$> Analyser.tryResult settings
  | .wait => (fun _ => ()) <$> Analyser.wait horizon.polls settings
  | .waitTimeout timeout =>
    (fun _ => ()) <$> Analyser.waitTimeout horizon.elapsed timeout horizon.polls settings
  | .cancel => Analyser.cancel

theorem analyser_performArmed (horizon : Horizon) (a : Analyser σ) (settings : Settings)
    (call : ArmedCall) : (performArmed horizon a settings call).2.analyser =
      after (armedSession horizon settings call) a := by
  cases call with
  | poll =>
    rw [armedSession, after_map]
    exact analyser_settle (fun _ _ => rfl) fun _ => rfl
  | tryResult =>
    rw [armedSession, after_map]
    exact analyser_settle (analyser_conclude settings) fun _ => rfl
  | wait =>
    rw [armedSession, after_map]
    exact analyser_settle (analyser_conclude settings) fun _ => rfl
  | waitTimeout timeout =>
    rw [armedSession, after_map]
    exact analyser_settle (analyser_conclude settings) fun _ => rfl
  | cancel => exact analyser_settle (fun _ _ => rfl) fun _ => rfl

/-- A call keeps what its session keeps. -/
theorem perform_keeps {horizon : Horizon} {call : Call}
    (idle : ∀ c, call = .idle c → Keeps inv (idleSession horizon c))
    (armed : ∀ settings c, call = .armed c → Keeps inv (armedSession horizon settings c))
    {h : Handle σ} (holds : inv h.analyser) : inv (perform horizon h call).2.analyser := by
  cases h with
  | idle a =>
    cases call with
    | idle call => exact (analyser_performIdle horizon a call).symm ▸ idle call rfl a holds
    | armed call => exact holds
  | armed a settings =>
    cases call with
    | idle call => exact holds
    | armed call =>
      exact (analyser_performArmed horizon a settings call).symm ▸ armed settings call rfl a holds
  | lost a => cases call <;> exact holds

/-! ## Histories -/

/-- The link was just wrapped; its record is empty. -/
def wrapped (link : σ) : Analyser (Recorded σ) := { link := ⟨link, []⟩ }

/-- Handles that calls in any order make of a link. One whose probe failed is
lost at once, but what it transferred stays on record. -/
inductive Reachable (link : σ) : Handle (Recorded σ) → Prop
  | fresh : Reachable link (idle (wrapped link))
  | probed {a : Analyser (Recorded σ)} :
    Analyser.probe (wrapped link) = .ok () a → Reachable link (idle a)
  | unprobed {a : Analyser (Recorded σ)} {error : AnalyserError} :
    Analyser.probe (wrapped link) = .error error a → Reachable link (lost a)
  | call {h : Handle (Recorded σ)} (horizon : Horizon) (call : Call) :
    Reachable link h → Reachable link (perform horizon h call).2

/-- An invariant that all sessions keep holds of every reachable handle if it
holds of the link at the start. -/
theorem Reachable.invariant {link : σ} (inv : Analyser (Recorded σ) → Prop)
    (start : inv (wrapped link)) (probe : Keeps inv Analyser.probe)
    (idle : ∀ horizon call, Keeps inv (idleSession horizon call))
    (armed : ∀ horizon settings call, Keeps inv (armedSession horizon settings call))
    {h : Handle (Recorded σ)} (reachable : Reachable link h) : inv h.analyser := by
  induction reachable with
  | fresh => exact start
  | probed run =>
    have kept := probe (wrapped link) start
    rwa [after_of_ok run] at kept
  | unprobed run =>
    have kept := probe (wrapped link) start
    rwa [after_of_error run] at kept
  | call horizon call _ ih =>
    exact perform_keeps (fun c _ => idle horizon c)
      (fun settings c _ => armed horizon settings c) ih

/-- All transfers that led to a handle, newest first. -/
def record (h : Handle (Recorded σ)) : List Exchange := h.analyser.link.exchanges

end Handle

end LogicCapture
