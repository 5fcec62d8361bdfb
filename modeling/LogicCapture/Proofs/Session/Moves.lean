import LogicCapture.Analyser.Error
import LogicCapture.Proofs.Link.Replay

/-!
# Moves

A session asks for one transfer after the other, each of them in some phase. It
goes on as long as nothing is wrong, so its transfers follow a list of moves up
to the first fault, and that fault is what the session fails with.
-/

namespace LogicCapture

/-- A transfer that a phase asks for. -/
structure Move where
  phase : Phase
  ask : Ask
deriving DecidableEq

/-- Transfers follow the moves as far as nothing goes wrong. They stop at the
first fault; without any they make all the moves. -/
inductive Follows : List Move → List Exchange → Option (Phase × LinkError) → Prop
  | done : Follows [] [] none
  | next {move : Move} {e : Exchange} {moves : List Move} {made : List Exchange}
    {stop : Option (Phase × LinkError)} : e.ask = move.ask → e.fault? = none →
      Follows moves made stop → Follows (move :: moves) (e :: made) stop
  | stopped {move : Move} {e : Exchange} {moves : List Move} {cause : LinkError} :
    e.ask = move.ask → e.fault? = some cause →
      Follows (move :: moves) [e] (some (move.phase, cause))

/-- The session failed with the fault at which its moves stopped. -/
def Breaks (moves : List Move) (made : List Exchange) (error : AnalyserError) : Prop :=
  ∃ phase cause, error = .link phase cause ∧ Follows moves made (some (phase, cause))

section Follows

variable {moves moves' : List Move} {made made' : List Exchange}
  {stop : Option (Phase × LinkError)}

theorem Follows.append (first : Follows moves made none) (second : Follows moves' made' stop) :
    Follows (moves ++ moves') (made ++ made') stop := by
  generalize none_eq : (none : Option (Phase × LinkError)) = none_stop at first
  induction first with
  | done => exact second
  | next asks clean _ ih => exact .next asks clean (ih none_eq)
  | stopped => cases none_eq

theorem Follows.weaken {fault : Phase × LinkError} (follows : Follows moves made (some fault)) :
    Follows (moves ++ moves') made (some fault) := by
  generalize some_eq : some fault = stop at follows
  induction follows with
  | done => cases some_eq
  | next asks clean _ ih => exact .next asks clean (ih some_eq)
  | stopped asks fault => exact .stopped asks fault

/-- Moves that were all made went well. -/
theorem Follows.clean (follows : Follows moves made none) : ∀ e ∈ made, e.fault? = none := by
  generalize none_eq : (none : Option (Phase × LinkError)) = stop at follows
  induction follows with
  | done => nofun
  | next asks clean _ ih => exact List.forall_mem_cons.2 ⟨clean, ih none_eq⟩
  | stopped => cases none_eq

/-- Moves that only send, and were all made, sent their bytes. -/
theorem Follows.eq_sent {sent : List (List UInt8)} (follows : Follows moves made none)
    (sends : moves.map Move.ask = sent.map Ask.send) : made = sent.map (.sent · (.ok ())) := by
  induction sent generalizing moves made with
  | nil =>
    obtain rfl := List.map_eq_nil_iff.1 sends
    cases follows
    rfl
  | cons bytes rest ih =>
    obtain ⟨move, moves', rfl, ask, sends'⟩ := List.map_eq_cons_iff.1 sends
    cases follows with
    | @next _ e _ _ _ asks clean further =>
      rw [List.map_cons, ← ih further sends', e.eq_sent_of_ask (asks.trans ask) clean]

/-- The transfer at fault is the last one. The moves say which phase it was in. -/
theorem Follows.at_fault {before later : List Exchange} {e : Exchange} {cause : LinkError}
    (follows : Follows moves (before ++ e :: later) stop) (fault : e.fault? = some cause) :
    later = [] ∧ (∀ x ∈ before, x.fault? = none) ∧ ∃ phase done rest, stop = some (phase, cause) ∧
      moves = done ++ ⟨phase, e.ask⟩ :: rest ∧ before.map Exchange.ask = done.map Move.ask := by
  induction before generalizing moves with
  | nil =>
    rw [List.nil_append] at follows
    cases follows with
    | next asks clean _ => cases clean.symm.trans fault
    | @stopped move _ moves _ asks fault' =>
      obtain rfl := Option.some.inj (fault'.symm.trans fault)
      refine ⟨rfl, nofun, move.phase, [], moves, rfl, ?_, rfl⟩
      rw [asks, List.nil_append]
  | cons x before ih =>
    rw [List.cons_append] at follows
    generalize some_made : before ++ e :: later = made at follows
    cases follows with
    | @next move _ moves _ _ asks clean rest =>
      obtain ⟨last, cleans, phase, done, more, stops, split, same⟩ := ih (some_made ▸ rest)
      refine ⟨last, List.forall_mem_cons.2 ⟨clean, cleans⟩, phase, move :: done, more, stops,
        ?_, ?_⟩
      · rw [split, List.cons_append]
      · rw [List.map_cons, List.map_cons, asks, same]
    | stopped _ _ =>
      exact absurd some_made (List.append_ne_nil_of_right_ne_nil _ (List.cons_ne_nil _ _))

theorem Breaks.weaken {error : AnalyserError} (breaks : Breaks moves made error) :
    Breaks (moves ++ moves') made error := by
  obtain ⟨phase, cause, rfl, follows⟩ := breaks
  exact ⟨phase, cause, rfl, follows.weaken⟩

theorem Breaks.after {error : AnalyserError} (first : Follows moves made none)
    (breaks : Breaks moves' made' error) : Breaks (moves ++ moves') (made ++ made') error := by
  obtain ⟨phase, cause, rfl, follows⟩ := breaks
  exact ⟨phase, cause, rfl, first.append follows⟩

end Follows

/-! ## Moves on a link -/

section Link

variable {σ : Type} [Link σ] {t u : σ} {phase : Phase} {moves : List Move}
  {made : List Exchange} {stop : Option (Phase × LinkError)}

/-- Which transfers the moves come to, and where they stop, is up to the link alone. -/
theorem Follows.determined {made' more : List Exchange} {stop' : Option (Phase × LinkError)}
    {v : σ} (follows : Follows moves made stop) (replayed : Link.Replays t made u)
    (follows' : Follows moves made' stop') (replayed' : Link.Replays t (made' ++ more) v) :
    made = made' ∧ stop = stop' := by
  induction follows generalizing t made' with
  | done =>
    cases follows'
    exact ⟨rfl, rfl⟩
  | next asks clean _ ih =>
    cases follows' with
    | next asks' _ further' =>
      obtain ⟨rfl, w, one, other⟩ := replayed.cons_unique replayed' (asks.trans asks'.symm)
      obtain ⟨rfl, rfl⟩ := ih one further' other
      exact ⟨rfl, rfl⟩
    | stopped asks' fault =>
      obtain ⟨rfl, -⟩ := replayed.cons_unique replayed' (asks.trans asks'.symm)
      cases clean.symm.trans fault
  | stopped asks fault =>
    cases follows' with
    | next asks' clean _ =>
      obtain ⟨rfl, -⟩ := replayed.cons_unique replayed' (asks.trans asks'.symm)
      cases clean.symm.trans fault
    | stopped asks' fault' =>
      obtain ⟨rfl, -⟩ := replayed.cons_unique replayed' (asks.trans asks'.symm)
      cases fault.symm.trans fault'
      exact ⟨rfl, rfl⟩

/-- A link that takes the bytes is not at fault. -/
theorem Follows.sent {bytes : List UInt8}
    (follows : Follows (⟨phase, .send bytes⟩ :: moves) made stop)
    (replayed : Link.Replays t made u) (taken : (Link.send bytes t).result = .ok ()) :
    ∃ rest, made = .sent bytes (.ok ()) :: rest ∧ Follows moves rest stop ∧
      Link.Replays (Link.send bytes t).link rest u := by
  cases follows with
  | next asks clean further =>
    cases replayed with
    | sent _ after =>
      cases asks
      exact ⟨_, by rw [taken], further, after⟩
    | received _ _ => cases asks
  | stopped asks fault =>
    cases replayed with
    | sent _ after =>
      cases asks
      rw [taken] at fault
      cases fault
    | received _ _ => cases asks

/-- Nothing stops moves that only send over a link that takes what is sent. -/
theorem Follows.unbroken {sent : List (List UInt8)} (follows : Follows moves made stop)
    (replayed : Link.Replays t made u) (willing : Link.Willing t)
    (sends : moves.map Move.ask = sent.map Ask.send) : stop = none := by
  induction sent generalizing moves made t with
  | nil =>
    obtain rfl := List.map_eq_nil_iff.1 sends
    cases follows
    rfl
  | cons bytes rest ih =>
    obtain ⟨⟨phase, ask⟩, moves', rfl, rfl, sends'⟩ := List.map_eq_cons_iff.1 sends
    obtain ⟨made', rfl, further, after⟩ := follows.sent replayed (willing t .refl bytes)
    exact ih further after willing.send sends'

/-- A link that replies as it should is not at fault. -/
theorem Follows.received {length : Nat} {reply : List UInt8}
    (follows : Follows (⟨phase, .receive length⟩ :: moves) made stop)
    (replayed : Link.Replays t made u) (given : (Link.receive length t).result = .ok reply)
    (long : reply.length = length) :
    ∃ rest, made = .received length (.ok reply) :: rest ∧ Follows moves rest stop ∧
      Link.Replays (Link.receive length t).link rest u := by
  cases follows with
  | next asks clean further =>
    cases replayed with
    | sent _ _ => cases asks
    | received _ after =>
      cases asks
      exact ⟨_, by rw [given], further, after⟩
  | stopped asks fault =>
    cases replayed with
    | sent _ _ => cases asks
    | received _ after =>
      cases asks
      rw [given, Exchange.fault?_received_ok long] at fault
      cases fault

end Link

end LogicCapture
