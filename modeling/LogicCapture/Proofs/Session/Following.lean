import LogicCapture.Proofs.Session.Stages
import LogicCapture.Proofs.Session.StatusNoise
import Mathlib.Data.List.Destutter

/-!
# Polling follows the analyser

A poll is one request for the status, and its reply decides what comes next. From that a
row of polls is told by the replies alone, up to the one that ends it:
`Analyser.pollUntilDone_follows` says what is asked for, what is left of the link, the
stage, and the lines of the log, and that the upper bits of the replies do not matter.
-/

namespace LogicCapture

/-! ## Status bits -/

theorem Status.exists_code {n : Nat} (legal : n < 5) : ∃ status : Status, n = status.code :=
  match n, legal with
  | 0, _ => ⟨idle, rfl⟩
  | 1, _ => ⟨pretrigger, rfl⟩
  | 2, _ => ⟨armed, rfl⟩
  | 3, _ => ⟨run, rfl⟩
  | 4, _ => ⟨done, rfl⟩

theorem Status.code_injective {s s' : Status} (same : s.code = s'.code) : s = s' := by
  have said : (UInt8.ofNat s.code).toNat % 8 = s.code := by cases s <;> rfl
  exact Option.some.inj ((ofByte?_of_code said).symm.trans (ofByte?_of_code (said.trans same)))

theorem Status.ofByte?_eq_none {byte : UInt8} (illegal : 4 < byte.toNat % 8) :
    ofByte? byte = none := by
  cases legal : ofByte? byte with
  | none => rfl
  | some status =>
    rw [code_of_ofByte? legal] at illegal
    cases status <;> exact absurd illegal (by decide)

/-- The stage that the bits of a status byte stand for. -/
def stageSaid? (byte : UInt8) : Option Stage :=
  match byte.toNat % 8 with
  | 1 | 2 => some .armed
  | 3 => some .running
  | 4 => some .done
  | _ => none

theorem stageSaid?_of_code {byte : UInt8} {status : Status} (said : byte.toNat % 8 = status.code) :
    stageSaid? byte = Analyser.stageOf? status := by
  rw [stageSaid?, said]
  cases status <;> rfl

/-! ## Lines about the status -/

def LogLine.status? : LogLine → Option Status
  | status reported => some reported
  | _ => none

namespace Analyser

open Session

variable {σ : Type}

/-- The statuses that the log has lines for, in order. -/
def statuses (a : Analyser σ) : List Status := (a.log.filterMap LogLine.status?).reverse

theorem keeps_statuses_during {α : Type} (noted : List Status) (phase : Phase)
    (transfer : σ → Transfer σ α) : Keeps (·.statuses = noted) (during phase transfer) := by
  intro a same
  have silent : (((transfer a.link).accepted.map LogLine.accepted).reverse).filterMap
      LogLine.status? = [] := by
    refine List.filterMap_eq_nil_iff.2 fun line mem => ?_
    obtain ⟨bytes, -, rfl⟩ := List.mem_map.1 (List.mem_reverse.1 mem)
    rfl
  rw [after_during, statuses, List.filterMap_append, silent]
  exact same

/-- A poll itself has no line about the status. -/
theorem keeps_statuses_poll [Link σ] (noted : List Status) :
    Keeps (·.statuses = noted) (poll : Session σ Status) := by
  have asked : Keeps (·.statuses = noted) (readStatus : Session σ Status) := by
    refine ((keeps_request (keeps_statuses_during noted) _ _ _).bind fun reply => ?_).bind
      fun byte => ?_
    · split
      · exact .pure _
      · exact .throw _
    · split
      · exact .pure _
      · exact .throw _
  refine asked.bind fun status => ?_
  have entered (stage : Stage) : Keeps (·.statuses = noted) (enter stage : Session σ Unit) := by
    intro a same
    rw [after_enter]
    split
    · exact same
    · exact same
  split
  · next stage _ => exact (entered stage).bind fun _ => .pure _
  · exact .pure _

/-- A status is noted if it differs from the one before. -/
def noteNew (before : Option Status) (status : Status) (a : Analyser σ) : Analyser σ :=
  if before = some status then a else { a with log := .status status :: a.log }

/-- The statuses are one for each run of equal ones in what was heard, by their numbers;
the status `before` was noted already. -/
def InRuns (before : Option Status) (noted : List Status) (heard : List UInt8) : Prop :=
  (before.toList ++ noted).map Status.code =
    (before.toList.map Status.code ++ statusBits heard).destutter (· ≠ ·)

theorem inRuns_nil (before : Option Status) : InRuns before [] [] := by
  cases before with
  | none => rfl
  | some status => rfl

theorem InRuns.cons {before : Option Status} {status : Status} {noted : List Status} {byte : UInt8}
    {heard : List UInt8} (said : byte.toNat % 8 = status.code)
    (runs : InRuns (some status) noted heard) :
    InRuns before ((if before = some status then [] else [status]) ++ noted) (byte :: heard) := by
  have bits : statusBits (byte :: heard) = status.code :: statusBits heard :=
    congrArg (· :: statusBits heard) said
  unfold InRuns at runs ⊢
  rw [bits]
  cases before with
  | none => exact runs
  | some last =>
    change _ = (last.code :: status.code :: statusBits heard).destutter (· ≠ ·)
    rw [List.destutter_cons_cons]
    by_cases again : last = status
    · rw [again, if_pos rfl, if_neg (not_not_intro rfl)]
      exact runs
    · rw [if_neg (mt Option.some.inj again), if_pos (mt Status.code_injective again)]
      exact congrArg (last.code :: ·) runs

/-! ## Polls -/

/-- What polls leave that made these transfers: what they heard decides the stage, and these
statuses were noted. -/
structure Polled [Link σ] (a b : Analyser (Recorded σ)) (made : List Exchange)
    (heard : List UInt8) (noted : List Status) : Prop extends Extends a b made where
  version : b.version = a.version
  geometry : b.geometry = a.geometry
  stage : b.stage = (heard.filterMap stageSaid?).getLastD a.stage
  statuses : b.statuses = a.statuses ++ noted

/-- A request for the status that ends the polling before the capture is done. -/
inductive StopsPolling : List Exchange → AnalyserError → Prop
  | unsent (cause : LinkError) :
    StopsPolling [.sent [0x81] (.error cause)] (.link .readStatus cause)
  | failed (cause : LinkError) :
    StopsPolling [.sent [0x81] (.ok ()), .received 1 (.error cause)] (.link .readStatus cause)
  | misfit {reply : List UInt8} : reply.length ≠ 1 →
    StopsPolling [.sent [0x81] (.ok ()), .received 1 (.ok reply)]
      (.link .readStatus (.shortRead 1 reply.length))
  | illegal {byte : UInt8} : 4 < byte.toNat % 8 →
    StopsPolling (statusRead byte) (.illegalStatus byte)

theorem StopsPolling.pollFails {made : List Exchange} {error : AnalyserError}
    (stops : StopsPolling made error) : PollFails made error := by
  cases stops with
  | unsent cause => exact .inl ⟨_, _, rfl, .stopped rfl rfl⟩
  | failed cause => exact .inl ⟨_, _, rfl, .next rfl rfl (.stopped rfl rfl)⟩
  | misfit short =>
    exact .inl ⟨_, _, rfl, .next rfl rfl (.stopped rfl (Exchange.fault?_received_short short))⟩
  | illegal illegal => exact .inr ⟨_, Status.ofByte?_eq_none illegal, rfl, rfl⟩

variable [Link σ] {a b c : Analyser (Recorded σ)} {made more : List Exchange}
  {heard others : List UInt8} {noted later : List Status} {u : σ} {byte : UInt8} {status : Status}

theorem Polled.trans (first : Polled a b made heard noted) (second : Polled b c more others later) :
    Polled a c (made ++ more) (heard ++ others) (noted ++ later) where
  toExtends := first.toExtends.trans second.toExtends
  version := second.version.trans first.version
  geometry := second.geometry.trans first.geometry
  stage := by
    rw [second.stage, first.stage, List.filterMap_append, List.getLastD_eq_getLast?,
      List.getLastD_eq_getLast?, List.getLastD_eq_getLast?, List.getLast?_append, Option.getD_or]
  statuses := by rw [second.statuses, first.statuses, List.append_assoc]

theorem polled_noteNew (before : Option Status) (status : Status) (a : Analyser (Recorded σ)) :
    Polled a (noteNew before status a) [] [] (if before = some status then [] else [status]) := by
  unfold noteNew
  split
  · exact ⟨.nil rfl, rfl, rfl, rfl, (List.append_nil _).symm⟩
  · exact ⟨.nil rfl, rfl, rfl, rfl, List.reverse_cons⟩

/-- What is known of the analyser stays so, and there are no lines about the status. -/
theorem known_after_poll (a : Analyser (Recorded σ)) :
    (after poll a).version = a.version ∧ (after poll a).geometry = a.geometry ∧
      (after poll a).statuses = a.statuses := by
  have known := (sessionInvariant_known a.version a.geometry).poll a ⟨rfl, rfl⟩
  exact ⟨known.1, known.2, keeps_statuses_poll a.statuses a rfl⟩

section Determined

variable {t v : σ} {made' : List Exchange} {byte' : UInt8} {error error' : AnalyserError}

theorem statusRead_determined (replayed : Link.Replays t (statusRead byte) u)
    (replayed' : Link.Replays t (statusRead byte' ++ more) v) : byte = byte' := by
  obtain ⟨same, -⟩ := (statusRead_follows byte).determined replayed (statusRead_follows byte')
    replayed'
  cases same
  rfl

theorem PollFails.illegal_of_read (fails : PollFails made error)
    (replayed : Link.Replays t made u) (replayed' : Link.Replays t (statusRead byte ++ more) v) :
    Status.ofByte? byte = none := by
  rcases fails with ⟨phase, cause, -, broken⟩ | ⟨byte', illegal, -, rfl⟩
  · obtain ⟨-, stop⟩ := broken.determined replayed (statusRead_follows byte) replayed'
    cases stop
  · exact statusRead_determined replayed replayed' ▸ illegal

theorem PollFails.determined (fails : PollFails made error) (replayed : Link.Replays t made u)
    (fails' : PollFails made' error') (replayed' : Link.Replays t made' v) :
    made = made' ∧ error = error' := by
  have behind : Link.Replays t (made' ++ []) v := (List.append_nil made').symm ▸ replayed'
  rcases fails with ⟨phase, cause, rfl, broken⟩ | ⟨byte, illegal, rfl, rfl⟩
  · rcases fails' with ⟨phase', cause', rfl, broken'⟩ | ⟨byte', illegal', rfl, rfl⟩
    · obtain ⟨rfl, stop⟩ := broken.determined replayed broken' behind
      cases stop
      exact ⟨rfl, rfl⟩
    · obtain ⟨-, stop⟩ := broken.determined replayed (statusRead_follows byte') behind
      cases stop
  · rcases fails' with ⟨phase', cause', rfl, broken'⟩ | ⟨byte', illegal', rfl, rfl⟩
    · obtain ⟨-, stop⟩ := (statusRead_follows byte).determined replayed broken' behind
      cases stop
    · obtain rfl := statusRead_determined replayed behind
      exact ⟨rfl, rfl⟩

end Determined

theorem polled_of_legal (said : byte.toNat % 8 = status.code)
    (replayed : Link.Replays a.link.link (statusRead byte ++ more) u) :
    ∃ b, poll a = .ok status b ∧ Polled a b (statusRead byte) [byte] [] := by
  obtain ⟨version, geometry, noted⟩ := known_after_poll a
  have legal := Status.ofByte?_of_code said
  cases run : poll a with
  | ok status' b =>
    obtain ⟨made, extended, byte', legal', rfl, stage⟩ := (poll_ends a).ok run
    obtain rfl := statusRead_determined extended.replayed replayed
    obtain rfl := Option.some.inj (legal'.symm.trans legal)
    rw [after_of_ok run] at version geometry noted
    refine ⟨b, rfl, extended, version, geometry, ?_, noted.trans (List.append_nil _).symm⟩
    have stands : stageOfByte? byte' = stageSaid? byte' := by
      rw [stageOfByte?, legal, Option.bind_some, stageSaid?_of_code said]
    rw [stage, stands, List.filterMap_cons, List.filterMap_nil]
    cases stageSaid? byte' <;> rfl
  | error error b =>
    obtain ⟨made, extended, -, fails⟩ := (poll_ends a).error run
    cases (fails.illegal_of_read extended.replayed replayed).symm.trans legal

theorem polled_of_stops {error : AnalyserError} (stops : StopsPolling made error)
    (replayed : Link.Replays a.link.link made u) :
    ∃ b, poll a = .error error b ∧ Polled a b made [] [] := by
  obtain ⟨version, geometry, noted⟩ := known_after_poll a
  cases run : poll a with
  | ok status b =>
    obtain ⟨made', extended, byte, legal, rfl, -⟩ := (poll_ends a).ok run
    have read : Link.Replays a.link.link (statusRead byte ++ []) b.link.link := extended.replayed
    cases (stops.pollFails.illegal_of_read replayed read).symm.trans legal
  | error error' b =>
    obtain ⟨made', extended, stage, fails⟩ := (poll_ends a).error run
    obtain ⟨rfl, rfl⟩ := fails.determined extended.replayed stops.pollFails replayed
    rw [after_of_error run] at version geometry noted
    exact ⟨b, rfl, extended, version, geometry, stage, noted.trans (List.append_nil _).symm⟩

/-! ## Rows of polls -/

/-- What a poll that was answered goes on with. -/
theorem pollUntilDone_of_polled {limit : Nat} {before : Option Status}
    (polled : poll a = .ok status b) : pollUntilDone (limit + 1) before a =
      (if status = .done then pure true else pollUntilDone limit (some status))
        (noteNew before status b) := by
  rw [pollUntilDone, bind_of_ok polled, noteNew]
  dsimp only
  split
  · rfl
  · rfl

theorem pollUntilDone_of_done {last : UInt8} (done : last.toNat % 8 = 4) (limit : Nat)
    (before : Option Status) (a : Analyser (Recorded σ))
    (replayed : Link.Replays a.link.link (statusRead last) u) :
    ∃ b noted, pollUntilDone (limit + 1) before a = .ok true b ∧
      Polled a b (statusRead last) [last] noted ∧ InRuns before noted [last] := by
  have said : last.toNat % 8 = Status.done.code := done
  have alone : Link.Replays a.link.link (statusRead last ++ []) u := replayed
  obtain ⟨b, run, polled⟩ := polled_of_legal said alone
  have runs : InRuns before ((if before = some .done then [] else [.done]) ++ []) [last] :=
    (inRuns_nil (some .done)).cons said
  rw [List.append_nil] at runs
  refine ⟨noteNew before .done b, _, ?_, polled.trans (polled_noteNew before .done b), runs⟩
  rw [pollUntilDone_of_polled run, if_pos rfl]
  rfl

theorem pollUntilDone_of_stops {tail : List Exchange} {error : AnalyserError}
    (stops : StopsPolling tail error) (limit : Nat) (before : Option Status)
    (a : Analyser (Recorded σ)) (replayed : Link.Replays a.link.link tail u) :
    ∃ b noted, pollUntilDone (limit + 1) before a = .error error b ∧ Polled a b tail [] noted ∧
      InRuns before noted [] := by
  obtain ⟨b, run, polled⟩ := polled_of_stops stops replayed
  exact ⟨b, [], bind_of_error run, polled, inRuns_nil before⟩

/-- A row of polls ends as its last one does, if so many are made. -/
theorem pollUntilDone_of_waiting
    {finish : Analyser (Recorded σ) → EStateM.Result AnalyserError (Analyser (Recorded σ)) Bool}
    {tail : List Exchange} {told : List UInt8}
    (last : ∀ limit before a, Link.Replays a.link.link tail u →
      ∃ b noted, pollUntilDone (limit + 1) before a = finish b ∧ Polled a b tail told noted ∧
        InRuns before noted told)
    {waiting : List UInt8} (legal : ∀ byte ∈ waiting, byte.toNat % 8 < 4) {limit : Nat}
    (enough : waiting.length < limit) (before : Option Status)
    (replayed : Link.Replays a.link.link (waiting.flatMap statusRead ++ tail) u) :
    ∃ b noted, pollUntilDone limit before a = finish b ∧
      Polled a b (waiting.flatMap statusRead ++ tail) (waiting ++ told) noted ∧
      InRuns before noted (waiting ++ told) := by
  induction waiting generalizing a limit before with
  | nil =>
    obtain ⟨limit, rfl⟩ := Nat.exists_eq_add_one_of_ne_zero (Nat.ne_of_gt enough)
    exact last limit before a replayed
  | cons byte waiting ih =>
    obtain ⟨limit, rfl⟩ := Nat.exists_eq_add_one_of_ne_zero (Nat.ne_zero_of_lt enough)
    obtain ⟨waits, others⟩ := List.forall_mem_cons.1 legal
    obtain ⟨status, said⟩ := Status.exists_code (Nat.lt_succ_of_lt waits)
    have going : status ≠ .done := by
      rintro rfl
      exact Nat.ne_of_lt waits said
    rw [List.flatMap_cons, List.append_assoc] at replayed ⊢
    obtain ⟨b, run, polled⟩ := polled_of_legal said replayed
    have so_far := polled.trans (polled_noteNew before status b)
    rw [List.append_nil] at so_far
    obtain ⟨c, noted, rest, followed, runs⟩ := ih others (Nat.lt_of_succ_lt_succ enough)
      (some status) (so_far.replayed.after replayed)
    refine ⟨c, _, ?_, so_far.trans followed, runs.cons said⟩
    rw [pollUntilDone_of_polled run, if_neg going, rest]

/-- Polling follows what the analyser replies. If that is for a while that the capture is
going on and then that it is done, just these replies are asked for; every run of equal
statuses is noted once. If instead a request stops the polling, the stage and the lines
are those of the replies before it. The upper bits of the status bytes do not matter, but
an illegal one is reported whole. -/
theorem pollUntilDone_follows :
    (∀ (a : Analyser (Recorded σ)) (u : σ) (waiting : List UInt8) (limit : Nat),
      (∀ byte ∈ waiting, byte.toNat % 8 < 4) → waiting.length < limit →
      (∀ last : UInt8, last.toNat % 8 = 4 →
        Link.Replays a.link.link ((waiting ++ [last]).flatMap statusRead) u →
        ∃ b noted, pollUntilDone limit none a = .ok true b ∧ b.link.link = u ∧ b.stage = .done ∧
          Polled a b ((waiting ++ [last]).flatMap statusRead) (waiting ++ [last]) noted ∧
          InRuns none noted (waiting ++ [last])) ∧
      ∀ tail error, StopsPolling tail error →
        Link.Replays a.link.link (waiting.flatMap statusRead ++ tail) u →
        ∃ b noted, pollUntilDone limit none a = .error error b ∧ b.link.link = u ∧
          Polled a b (waiting.flatMap statusRead ++ tail) waiting noted ∧
          InRuns none noted waiting) ∧
    ∀ (τ : Type) [Link τ] (rel : σ → τ → Prop), Link.SameStatus rel →
      ∀ (a : Analyser σ) (b : Analyser τ) (limit : Nat), Twins rel a b →
        TwinResults rel Eq (pollUntilDone limit none a) (pollUntilDone limit none b) := by
  refine ⟨fun a u waiting limit legal enough => ⟨fun last done replayed => ?_,
    fun tail error stops replayed => ?_⟩, fun τ _ rel same a b limit twins =>
      pollUntilDone_twins same limit none twins⟩
  · rw [List.flatMap_append, List.flatMap_singleton] at replayed ⊢
    obtain ⟨b, noted, run, polled, runs⟩ :=
      pollUntilDone_of_waiting (pollUntilDone_of_done done) legal enough none replayed
    have said : last.toNat % 8 = Status.done.code := done
    have at_last : stageSaid? last = some .done := stageSaid?_of_code said
    refine ⟨b, noted, run, polled.replayed.unique replayed, ?_, polled, runs⟩
    rw [polled.stage, List.filterMap_append, List.filterMap_cons_some at_last, List.filterMap_nil,
      List.getLastD_concat]
  · obtain ⟨b, noted, run, polled, runs⟩ :=
      pollUntilDone_of_waiting (pollUntilDone_of_stops stops) legal enough none replayed
    rw [List.append_nil] at polled runs
    exact ⟨b, noted, run, polled.replayed.unique replayed, polled, runs⟩

end Analyser

/-! ## Scripts of status bytes -/

namespace Script

/-- The script of these status bytes, and others behind them, replays the requests for them. -/
theorem replays_statusReads (bytes : List UInt8) (rest : List Reply) (unit sends : Nat) :
    Link.Replays (⟨unit, [], bytes.map (.raw [·]) ++ rest, sends⟩ : Script)
      (bytes.flatMap Analyser.statusRead) ⟨unit, [], rest, sends + bytes.length⟩ := by
  induction bytes generalizing sends with
  | nil => exact .nil
  | cons byte bytes ih =>
    have others := ih (sends + 1)
    rw [Nat.add_right_comm] at others
    exact .sent [0x81] (.received 1 others)

/-- Replies that differ in the upper bits of their bytes only. -/
inductive Noisy : Reply → Reply → Prop
  | raw {bytes bytes' : List UInt8} : SameBits bytes bytes' → Noisy (.raw bytes) (.raw bytes')
  | bytes {bytes bytes' : List UInt8} : SameBits bytes bytes' →
    Noisy (.bytes bytes) (.bytes bytes')
  | refl (reply : Reply) : Noisy reply reply

/-- Scripts that differ in such replies only. -/
structure SameButNoise (s t : Script) : Prop where
  faults : s.faults = t.faults
  sends : s.sends = t.sends
  replies : List.Forall₂ Noisy s.replies t.replies

theorem sameStatus_sameButNoise : Link.SameStatus SameButNoise where
  send := by
    rintro ⟨unit, faults, replies, sends⟩ ⟨unit', _, replies', _⟩ ⟨rfl, rfl, noisy⟩
    change SameTransfers _ _ (Script.send [0x81] _) (Script.send [0x81] _)
    unfold Script.send
    cases faults.lookup sends with
    | none => exact .ok [] rfl ⟨rfl, rfl, noisy⟩
    | some error => exact .error error [] ⟨rfl, rfl, noisy⟩
  receive := by
    rintro ⟨unit, faults, replies, sends⟩ ⟨unit', _, replies', _⟩ ⟨rfl, rfl, noisy⟩
    change SameTransfers _ _ (Script.receive 1 _) (Script.receive 1 _)
    unfold Script.receive
    cases noisy with
    | nil => exact .error _ [] ⟨rfl, rfl, .nil⟩
    | @cons reply reply' rest rest' first others =>
      have after : SameButNoise ⟨unit, faults, rest, sends⟩ ⟨unit', faults, rest', sends⟩ :=
        ⟨rfl, rfl, others⟩
      dsimp only
      cases first with
      | raw same => exact .ok [] same after
      | @bytes bytes bytes' same =>
        have length : bytes.length = bytes'.length := by
          rw [← length_statusBits bytes, same, length_statusBits]
        rw [answer, answer, length]
        split
        · exact .ok [] same after
        · exact .error _ [] after
      | refl =>
        cases answer 1 reply with
        | ok bytes => exact .ok [] rfl after
        | error cause => exact .error cause [] after

end Script

namespace Analyser

/-- An analyser that will reply with these status bytes. -/
def replying (bytes : List UInt8) : Analyser Script where
  link := { replies := bytes.map (.raw [·]) }

theorem replays_replying (bytes : List UInt8) : Link.Replays (replying bytes).link
    (bytes.flatMap statusRead) { replies := [], sends := bytes.length } := by
  have replayed := Script.replays_statusReads bytes [] defaultUnit 0
  rwa [List.append_nil, Nat.zero_add] at replayed

/-- The same with a record. -/
def replyingOnRecord (bytes : List UInt8) : Analyser (Recorded Script) where
  link := ⟨(replying bytes).link, []⟩

/-- The stage stays with what the third reply says, which the fourth one does not change,
and the first two replies are one line of the log. -/
theorem pollUntilDone_follows_relapse :
    (∃ b, pollUntilDone 9 none (replyingOnRecord [0x11, 0xF9, 0x03, 0x08, 0x8C]) = .ok true b ∧
      b.stage = .done ∧ b.statuses.map Status.code = [1, 3, 0, 4]) ∧
    (∃ b, pollUntilDone 9 none (replyingOnRecord [0x11, 0xF9, 0x03, 0x08, 0xFF]) =
        .error (.illegalStatus 0xFF) b ∧
      b.stage = .running ∧ b.statuses.map Status.code = [1, 3, 0]) ∧
    Session.TwinResults Script.SameButNoise Eq (pollUntilDone 9 none (replying [0x11, 0xFF]))
      (pollUntilDone 9 none (replying [0x01, 0x0F])) := by
  obtain ⟨follows, noise⟩ := pollUntilDone_follows (σ := Script)
  have legal : ∀ byte ∈ [0x11, 0xF9, 0x03, 0x08], UInt8.toNat byte % 8 < 4 := by simp
  refine ⟨?_, ?_, ?_⟩
  · obtain ⟨found, -⟩ := follows (replyingOnRecord [0x11, 0xF9, 0x03, 0x08, 0x8C])
      { replies := [], sends := 5 } [0x11, 0xF9, 0x03, 0x08] 9 legal (by decide)
    obtain ⟨b, noted, run, -, stage, polled, runs⟩ :=
      found 0x8C (by decide) (replays_replying [0x11, 0xF9, 0x03, 0x08, 0x8C])
    refine ⟨b, run, stage, ?_⟩
    rw [polled.statuses]
    exact runs.trans (by decide)
  · obtain ⟨-, stopped⟩ := follows (replyingOnRecord [0x11, 0xF9, 0x03, 0x08, 0xFF])
      { replies := [], sends := 5 } [0x11, 0xF9, 0x03, 0x08] 9 legal (by decide)
    obtain ⟨b, noted, run, -, polled, runs⟩ :=
      stopped _ _ (.illegal (by decide)) (replays_replying [0x11, 0xF9, 0x03, 0x08, 0xFF])
    refine ⟨b, run, polled.stage, ?_⟩
    rw [polled.statuses]
    exact runs.trans (by decide)
  · refine noise Script Script.SameButNoise Script.sameStatus_sameButNoise _ _ 9
      ⟨⟨⟨rfl, rfl, ?_⟩, rfl, rfl, rfl⟩, rfl⟩
    exact .cons (.raw rfl) (.cons (.raw rfl) .nil)

end Analyser

end LogicCapture
