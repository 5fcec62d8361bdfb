import LogicCapture.Proofs.Session.Moves
import LogicCapture.Proofs.Session.Runs

/-!
# Sessions and their transfers

`Session.Ends` tells how a session ends together with the transfers that it made
until then, which are on record and which its link replays. Requests are the
smallest sessions of this kind: two moves, and the bytes of the reply.
-/

namespace LogicCapture

/-! ## Outcomes with their transfers -/

namespace Session

variable {σ α β : Type} [Link σ] {a b : Analyser (Recorded σ)} {made : List Exchange}

/-- Between two states of an analyser its link made these transfers, oldest
first, and they are on record. -/
structure Extends (a b : Analyser (Recorded σ)) (made : List Exchange) : Prop where
  exchanges : b.link.exchanges = made.reverse ++ a.link.exchanges
  replayed : Link.Replays a.link.link made b.link.link

theorem Extends.nil (same : b.link = a.link) : Extends a b [] :=
  ⟨same ▸ rfl, same ▸ .nil⟩

theorem Extends.trans {c : Analyser (Recorded σ)} {more : List Exchange}
    (first : Extends a b made) (second : Extends b c more) : Extends a c (made ++ more) where
  exchanges := by
    rw [second.exchanges, first.exchanges, List.reverse_append, List.append_assoc]
  replayed := first.replayed.trans second.replayed

/-- How a session ends that starts from `a`: `good` tells of the transfers that
it made, its value and the analyser after it, `bad` of a session that failed. -/
def Ends (x : Session (Recorded σ) α) (a : Analyser (Recorded σ))
    (good : List Exchange → α → Analyser (Recorded σ) → Prop)
    (bad : List Exchange → AnalyserError → Analyser (Recorded σ) → Prop) : Prop :=
  match x a with
  | .ok value b => ∃ made, Extends a b made ∧ good made value b
  | .error error b => ∃ made, Extends a b made ∧ bad made error b

variable {x : Session (Recorded σ) α} {f : α → Session (Recorded σ) β}
  {good : List Exchange → α → Analyser (Recorded σ) → Prop}
  {bad : List Exchange → AnalyserError → Analyser (Recorded σ) → Prop}
  {good' : List Exchange → β → Analyser (Recorded σ) → Prop}
  {bad' : List Exchange → AnalyserError → Analyser (Recorded σ) → Prop}

theorem Ends.of_ok {value : α} (run : x a = .ok value b) (extended : Extends a b made)
    (holds : good made value b) : Ends x a good bad := by
  rw [Ends, run]
  exact ⟨made, extended, holds⟩

theorem Ends.of_error {error : AnalyserError} (run : x a = .error error b)
    (extended : Extends a b made) (holds : bad made error b) : Ends x a good bad := by
  rw [Ends, run]
  exact ⟨made, extended, holds⟩

theorem Ends.of_eq {y : Session (Recorded σ) α} (same : x a = y a) (ends : Ends y a good bad) :
    Ends x a good bad := by
  rwa [Ends, same]

/-- A session without transfers. -/
theorem Ends.quiet {value : α} (run : x a = .ok value b) (same : b.link = a.link)
    (holds : good [] value b) : Ends x a good bad :=
  .of_ok run (.nil same) holds

theorem Ends.pure {value : α} (holds : good [] value a) :
    Ends (Pure.pure value : Session (Recorded σ) α) a good bad :=
  .quiet rfl rfl holds

theorem Ends.throw {error : AnalyserError} (holds : bad [] error a) :
    Ends (throw error : Session (Recorded σ) α) a good bad :=
  .of_error rfl (.nil rfl) holds

theorem Ends.ok {value : α} (ends : Ends x a good bad) (run : x a = .ok value b) :
    ∃ made, Extends a b made ∧ good made value b := by
  rwa [Ends, run] at ends

theorem Ends.error {error : AnalyserError} (ends : Ends x a good bad)
    (run : x a = .error error b) : ∃ made, Extends a b made ∧ bad made error b := by
  rwa [Ends, run] at ends

/-- The transfers of a session that went well come before those of the next. -/
theorem Ends.of_bind {value : α} (run : x a = .ok value b) (extended : Extends a b made)
    (rest : Ends (f value) b (fun more => good' (made ++ more)) fun more => bad' (made ++ more)) :
    Ends (x >>= f) a good' bad' := by
  cases run' : f value b with
  | ok value' c =>
    obtain ⟨more, further, holds⟩ := rest.ok run'
    exact .of_ok ((bind_of_ok run).trans run') (extended.trans further) holds
  | error error c =>
    obtain ⟨more, further, holds⟩ := rest.error run'
    exact .of_error ((bind_of_ok run).trans run') (extended.trans further) holds

theorem Ends.bind (first : Ends x a good bad)
    (failed : ∀ made error b, bad made error b → bad' made error b)
    (second : ∀ made value b, Extends a b made → good made value b →
      Ends (f value) b (fun more => good' (made ++ more)) fun more => bad' (made ++ more)) :
    Ends (x >>= f) a good' bad' := by
  cases run : x a with
  | ok value b =>
    obtain ⟨made, extended, holds⟩ := first.ok run
    exact .of_bind run extended (second made value b extended holds)
  | error error b =>
    obtain ⟨made, extended, holds⟩ := first.error run
    exact .of_error (bind_of_error run) extended (failed made error b holds)

/-- What comes after a session without transfers. -/
theorem Ends.after_quiet {value : α} (run : x a = .ok value b) (same : b.link = a.link)
    (rest : Ends (f value) b good' bad') : Ends (x >>= f) a good' bad' :=
  .of_bind run (.nil same) rest

theorem Ends.imp {good' : List Exchange → α → Analyser (Recorded σ) → Prop}
    (ends : Ends x a good bad) (ok : ∀ made value b, good made value b → good' made value b)
    (error : ∀ made error b, bad made error b → bad' made error b) : Ends x a good' bad' := by
  cases run : x a with
  | ok value b =>
    obtain ⟨made, extended, holds⟩ := ends.ok run
    exact .of_ok run extended (ok made value b holds)
  | error e b =>
    obtain ⟨made, extended, holds⟩ := ends.error run
    exact .of_error run extended (error made e b holds)

theorem Ends.map {g : α → β} (ends : Ends x a good bad)
    (ok : ∀ made value b, good made value b → good' made (g value) b) :
    Ends (g <$> x) a good' bad := by
  cases run : x a with
  | ok value b =>
    obtain ⟨made, extended, holds⟩ := ends.ok run
    exact .of_ok (map_of_ok run) extended (ok made value b holds)
  | error error b =>
    obtain ⟨made, extended, holds⟩ := ends.error run
    exact .of_error (map_of_error run) extended holds

end Session

/-! ## Requests -/

namespace Analyser

open Session

variable {σ : Type} [Link σ]

/-- One transfer makes one move. -/
theorem during_ends {α : Type} {phase : Phase} {transfer : Recorded σ → Transfer (Recorded σ) α}
    (exchange : Except LinkError α → Exchange) {ask : Ask} {a : Analyser (Recorded σ)}
    (extended : ∀ log, Extends a { a with link := (transfer a.link).link, log }
      [exchange (transfer a.link).result])
    (asks : ∀ result, (exchange result).ask = ask)
    (fault : ∀ cause, (exchange (.error cause)).fault? = some cause) :
    Ends (during phase transfer) a
      (fun made value b => b.stage = a.stage ∧ made = [exchange (.ok value)])
      (fun made error b => b.stage = a.stage ∧ Breaks [⟨phase, ask⟩] made error) := by
  cases result : (transfer a.link).result with
  | ok value =>
    rw [result] at extended
    exact .of_ok (during_of_ok result) (extended _) ⟨rfl, rfl⟩
  | error cause =>
    rw [result] at extended
    exact .of_error (during_of_error result) (extended _)
      ⟨rfl, phase, cause, rfl, .stopped (asks _) (fault cause)⟩

theorem send_ends (phase : Phase) (bytes : List UInt8) (a : Analyser (Recorded σ)) :
    Ends (during phase (Link.send bytes)) a
      (fun made _ b => b.stage = a.stage ∧ made = [.sent bytes (.ok ())])
      (fun made error b => b.stage = a.stage ∧ Breaks [⟨phase, .send bytes⟩] made error) :=
  during_ends (.sent bytes) (fun _ => ⟨rfl, .sent bytes .nil⟩) (fun _ => rfl) fun _ => rfl

theorem receive_ends (phase : Phase) (length : Nat) (a : Analyser (Recorded σ)) :
    Ends (during phase (Link.receive length)) a
      (fun made reply b => b.stage = a.stage ∧ made = [.received length (.ok reply)])
      (fun made error b => b.stage = a.stage ∧ Breaks [⟨phase, .receive length⟩] made error) :=
  during_ends (.received length) (fun _ => ⟨rfl, .received length .nil⟩) (fun _ => rfl) fun _ => rfl

/-- The moves of a request. -/
def requestMoves (phase : Phase) (frame : List UInt8) (length : Nat) : List Move :=
  [⟨phase, .send frame⟩, ⟨phase, .receive length⟩]

theorem request_ends (phase : Phase) (frame : List UInt8) (length : Nat)
    (a : Analyser (Recorded σ)) :
    Ends (request phase frame length) a
      (fun made reply b => b.stage = a.stage ∧ reply.length = length ∧
        made = [.sent frame (.ok ()), .received length (.ok reply)])
      (fun made error b => b.stage = a.stage ∧
        Breaks (requestMoves phase frame length) made error) := by
  have went : Follows [⟨phase, .send frame⟩] [.sent frame (.ok ())] none := .next rfl rfl .done
  refine (send_ends phase frame a).bind ?_ ?_
  · exact fun made error b ⟨stage, breaks⟩ => ⟨stage, breaks.weaken⟩
  · intro made _ b _ sent
    rcases sent with ⟨stage, rfl⟩
    refine (receive_ends phase length b).bind ?_ ?_
    · exact fun more error c ⟨stage', breaks⟩ => ⟨stage'.trans stage, breaks.after went⟩
    · intro more reply c _ received
      rcases received with ⟨stage', rfl⟩
      split
      · next short =>
        refine .throw ⟨stage'.trans stage, phase, _, rfl, ?_⟩
        exact went.append (.stopped rfl (Exchange.fault?_received_short short))
      · next long => exact .pure ⟨stage'.trans stage, Decidable.of_not_not long, rfl⟩

theorem requestByte_ends (phase : Phase) (command : Wire.Command) (a : Analyser (Recorded σ)) :
    Ends (requestByte phase command) a
      (fun made byte b => b.stage = a.stage ∧
        made = [.sent [command.code] (.ok ()), .received 1 (.ok [byte])])
      (fun made error b => b.stage = a.stage ∧
        Breaks (requestMoves phase [command.code] 1) made error) := by
  refine (request_ends phase [command.code] 1 a).bind (fun _ _ _ bad => bad) ?_
  intro made reply b _ requested
  rcases requested with ⟨stage, length, rfl⟩
  obtain ⟨byte, rfl⟩ := List.length_eq_one_iff.1 length
  exact .pure ⟨stage, rfl⟩

/-! ## Probing -/

/-- The moves of a probe: the version is asked for, then the geometry. -/
def probeMoves : List Move :=
  requestMoves .readVersion [Wire.Command.readVersion.code] 1 ++
    requestMoves .readGeometry [Wire.Command.readGeometry.code] 8

/-- A probe makes its moves as far as nothing goes wrong. It may still fail after all of
them, when the reply is not that of an analyser. -/
theorem probe_ends (a : Analyser (Recorded σ)) :
    Ends probe a (fun made _ _ => Follows probeMoves made none)
      (fun made _ _ => ∃ stop, Follows probeMoves made stop) := by
  refine (requestByte_ends .readVersion .readVersion a).bind ?_ ?_
  · intro made error b ⟨_, phase, cause, _, stopped⟩
    exact ⟨_, stopped.weaken⟩
  · intro made version b _ answered
    rcases answered with ⟨-, rfl⟩
    have asked : Follows (requestMoves .readVersion [Wire.Command.readVersion.code] 1)
        [.sent [Wire.Command.readVersion.code] (.ok ()), .received 1 (.ok [version])] none :=
      .next rfl rfl (.next rfl rfl .done)
    refine .after_quiet (b := { b with version := some version }) rfl rfl ?_
    rw [readGeometry, bind_assoc]
    refine (request_ends .readGeometry [Wire.Command.readGeometry.code] 8 _).bind ?_ ?_
    · intro made error c ⟨_, phase, cause, _, stopped⟩
      exact ⟨_, asked.append stopped⟩
    · intro made reply c _ replied
      rcases replied with ⟨-, length, rfl⟩
      have all : Follows probeMoves
          ([.sent [Wire.Command.readVersion.code] (.ok ()), .received 1 (.ok [version])] ++
            [.sent [Wire.Command.readGeometry.code] (.ok ()), .received 8 (.ok reply)]) none := by
        refine asked.append (.next rfl rfl (.next rfl ?_ .done))
        exact Exchange.fault?_received_ok length
      split
      · next geometry _ => exact .quiet rfl rfl all
      · next error _ => exact .of_error rfl (.nil rfl) ⟨none, all⟩

end Analyser

end LogicCapture
