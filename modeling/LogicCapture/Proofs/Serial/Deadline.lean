import LogicCapture.Proofs.Serial.Receiving

/-!
# The time for a transfer

The settings of a link allow every transfer a certain time. A transfer that keeps to it
makes no more reads or writes once one of them came back with the time over and bytes
outstanding, and fails (`KeepsTime`). When a call came back need not show in the clock of
the port, which is looked at behind some of the calls only; `Timeline` says which times
are in accord with what it shows there. `SerialLink.keeps_time_iff` says that a receive
always keeps to its time, and that a send does so unless the port takes part after part:
behind a write that took something the clock is not looked at.
-/

namespace LogicCapture.Serial

/-! ## When calls came back -/

/-- What the clock showed behind an attempt, if it was looked at. -/
def Outcome.time? : Outcome → Option Nat
  | waited time => some time
  | took _ | failed _ => none

/-- Times at which calls of a transfer may have come back that began at `start`: they do
not decrease, and every look at the clock behind a call falls between that call and the
next one. -/
structure Timeline (start : Nat) (shown : List (Option Nat)) (returned : Nat → Nat) : Prop where
  began : start ≤ returned 0
  forward : ∀ i, returned i ≤ returned (i + 1)
  looked : ∀ i time, shown[i]? = some (some time) → returned i ≤ time ∧ time ≤ returned (i + 1)

/-- Once a call came back with the time over and something outstanding it was the last one,
and the transfer failed. -/
def KeepsTime (timeout start : Nat) (returned : Nat → Nat) (calls : Nat) (Outstanding : Nat → Prop)
    (Fails : Prop) : Prop :=
  ∀ i < calls, Outstanding i → timeout ≤ returned i - start → i + 1 = calls ∧ Fails

variable {timeout start : Nat} {returned : Nat → Nat} {shown : List (Option Nat)}

/-- A look at the clock behind a call that came back late shows that it is late. -/
theorem Timeline.late (timeline : Timeline start shown returned) {i time : Nat}
    (at_i : shown[i]? = some (some time)) (late : timeout ≤ returned i - start) :
    timeout ≤ time - start :=
  Nat.le_trans late (Nat.sub_le_sub_right (timeline.looked i time at_i).1 start)

/-! ## Receiving -/

/-- A read that filled its room left nothing missing. -/
theorem Port.Listens.room_of_filled {p q : Port} {h : Hearing} {hearings : List Hearing}
    {bytes : List UInt8} (listens : Port.Listens p hearings q) (mem : h ∈ hearings)
    (filled : h.heard = .filled bytes) : h.room = bytes.length := by
  induction listens with
  | done p => cases mem
  | next hears _ ih =>
    rcases List.mem_cons.1 mem with rfl | mem
    · cases hears with
      | filled _ exactly =>
        cases filled
        exact exactly.symm
      | part | waited | failed => cases filled
    · exact ih mem

namespace SerialLink

open Port

variable {l : SerialLink} {length : Nat} {hearings : List Hearing} {port : Port}
  {t : Transfer SerialLink (List UInt8)}

theorem Collected.error_of_missing (collected : Collected length l t hearings port)
    (missing : (gathered hearings).length < length) : ∃ cause, t.result = .error cause := by
  cases result : t.result with
  | ok reply =>
    obtain ⟨rfl, all⟩ := (collected.ok reply).1 result
    exact absurd all (Nat.ne_of_lt missing)
  | error cause => exact ⟨cause, rfl⟩

/-- The bytes after a read that filled its room are all that were asked for. -/
theorem Collected.all_of_filled (collected : Collected length l t hearings port) {i : Nat}
    {h : Hearing} {bytes : List UInt8} (at_i : hearings[i]? = some h)
    (filled : h.heard = .filled bytes) : length ≤ (gathered (hearings.take (i + 1))).length := by
  obtain ⟨room, -⟩ := collected.asked i h at_i
  have fits := collected.made.room_of_filled (List.mem_of_getElem? at_i) filled
  rw [List.take_add_one, at_i, Option.toList_some, gathered_concat, List.length_append, filled,
    Heard.bytes]
  omega

theorem Collected.keepsTime (collected : Collected length l t hearings port)
    (timeline : Timeline l.port.now.1 (hearings.map (·.heard.time?)) returned) :
    KeepsTime l.settings.timeout l.port.now.1 returned hearings.length
      (fun i => (gathered (hearings.take (i + 1))).length < length)
      (∃ cause, t.result = .error cause) := by
  intro i lt missing late
  obtain ⟨h, at_i⟩ : ∃ h, hearings[i]? = some h := ⟨_, List.getElem?_eq_getElem lt⟩
  have looked {time : Nat} (seen : h.heard.time? = some time) :
      l.settings.timeout ≤ time - l.port.now.1 := by
    refine timeline.late (i := i) ?_ late
    rw [List.getElem?_map, at_i, Option.map_some, seen]
  have ends : h.heard.Ends l.settings.timeout l.port.now.1 := by
    cases heard : h.heard with
    | filled bytes =>
      exact absurd missing (Nat.not_lt_of_le (collected.all_of_filled at_i heard))
    | part bytes time | waited time => exact .inl ⟨time, rfl, looked (heard ▸ rfl)⟩
    | failed fault => exact .inr ⟨fault, rfl⟩
  obtain ⟨last, fewer⟩ := collected.ends i h at_i ends
  exact ⟨last, collected.error_of_missing fewer⟩

/-! ## Sending -/

variable {bytes : List UInt8} {attempts : List Attempt} {u : Transfer SerialLink Unit}

theorem Accounted.error_of_missing (accounted : Accounted bytes l u attempts port)
    (missing : counted attempts < bytes.length) : ∃ cause, u.result = .error cause := by
  cases result : u.result with
  | ok value => exact absurd (accounted.ok.1 result).1 (Nat.ne_of_lt missing)
  | error cause => exact ⟨cause, rfl⟩

/-- A transfer that failed with bytes missing was ended by an attempt. -/
theorem Accounted.exists_ends (accounted : Accounted bytes l u attempts port)
    (missing : counted attempts < bytes.length) :
    ∃ a ∈ attempts, a.outcome.Ends l.settings.timeout l.port.now.1 := by
  obtain ⟨cause, result⟩ := accounted.error_of_missing missing
  rcases accounted.no_other cause result with ⟨expected, actual, rfl⟩ | ⟨text, rfl⟩
  · obtain ⟨-, -, a, mem, gives_up⟩ := (accounted.short expected actual).1 result
    exact ⟨a, mem, .inl gives_up⟩
  · rcases (accounted.failed text).1 result with ⟨a, mem, fault, failed, -⟩ | ⟨all, -⟩
    · exact ⟨a, mem, .inr ⟨fault, failed⟩⟩
    · exact absurd all (Nat.ne_of_lt missing)

/-- The port took a part of the bytes in attempt number `i`, and others are left. -/
def TakesPart (total : Nat) (attempts : List Attempt) (i : Nat) : Prop :=
  (∃ a count, attempts[i]? = some a ∧ a.outcome = .took count ∧ 0 < count) ∧
    counted (attempts.take (i + 1)) < total

theorem Accounted.keepsTime_iff (accounted : Accounted bytes l u attempts port)
    (timeline : Timeline l.port.now.1 (attempts.map (·.outcome.time?)) returned) :
    KeepsTime l.settings.timeout l.port.now.1 returned attempts.length
        (fun i => counted (attempts.take (i + 1)) < bytes.length)
        (∃ cause, u.result = .error cause) ↔
      ∀ i, TakesPart bytes.length attempts i →
        returned i - l.port.now.1 < l.settings.timeout := by
  constructor
  · rintro keeps i ⟨⟨a, count, at_i, took, positive⟩, missing⟩
    refine Nat.lt_of_not_le fun late => ?_
    have lt : i < attempts.length := (List.getElem?_eq_some_iff.1 at_i).1
    obtain ⟨last, -⟩ := keeps i lt missing late
    rw [last, List.take_length] at missing
    -- the last attempt is then the one that ended the transfer, but it took something
    obtain ⟨b, mem, ends⟩ := accounted.exists_ends missing
    obtain ⟨j, at_j⟩ := List.mem_iff_getElem?.1 mem
    obtain rfl : j = i := by
      have last' := (accounted.ends j b at_j ends).1
      omega
    cases at_i.symm.trans at_j
    have nothing := ends.count_eq_zero
    rw [took] at nothing
    exact Nat.ne_of_gt positive nothing
  · intro in_time i lt missing late
    obtain ⟨a, at_i⟩ : ∃ a, attempts[i]? = some a := ⟨_, List.getElem?_eq_getElem lt⟩
    have ends : a.outcome.Ends l.settings.timeout l.port.now.1 := by
      cases outcome : a.outcome with
      | took count =>
        refine .inl (Nat.eq_zero_of_not_pos fun positive => ?_)
        have early := in_time i ⟨⟨a, count, at_i, outcome, positive⟩, missing⟩
        exact absurd late (Nat.not_le_of_lt early)
      | waited time =>
        refine .inl (timeline.late (i := i) ?_ late)
        rw [List.getElem?_map, at_i, Option.map_some, outcome, Outcome.time?]
      | failed fault => exact .inr ⟨fault, rfl⟩
    obtain ⟨last, fewer, -⟩ := accounted.ends i a at_i ends
    exact ⟨last, accounted.error_of_missing fewer⟩

/-- A receive keeps to the time that is allowed for a transfer. A send does so exactly if
no write that takes a part of what is left comes back with the time over: after such a
write it goes on. -/
theorem keeps_time_iff (l : SerialLink) (returned : Nat → Nat) :
    (∀ length hearings port, Collected length l (l.receive length) hearings port →
      Timeline l.port.now.1 (hearings.map (·.heard.time?)) returned →
      KeepsTime l.settings.timeout l.port.now.1 returned hearings.length
        (fun i => (gathered (hearings.take (i + 1))).length < length)
        (∃ cause, (l.receive length).result = .error cause)) ∧
    ∀ bytes attempts port, Accounted bytes l (l.send bytes) attempts port →
      Timeline l.port.now.1 (attempts.map (·.outcome.time?)) returned →
      (KeepsTime l.settings.timeout l.port.now.1 returned attempts.length
          (fun i => counted (attempts.take (i + 1)) < bytes.length)
          (∃ cause, (l.send bytes).result = .error cause) ↔
        ∀ i, TakesPart bytes.length attempts i →
          returned i - l.port.now.1 < l.settings.timeout) :=
  ⟨fun _ _ _ collected timeline => collected.keepsTime timeline,
    fun _ _ _ accounted timeline => accounted.keepsTime_iff timeline⟩

/-- A port that takes one byte and then the rest, and delivers one byte. Every look at its
clock shows 12 milliseconds more; the settings allow 10 for a transfer. -/
def trickling : SerialLink where
  port :=
    { name := none, reads := [.bytes [0xAA]], writes := [.takes 1],
      clock := fun look => 12000000 * look }
  settings := {}

theorem trickling_accounted :
    ∃ port, Accounted [0xAA, 0xBB] trickling (trickling.send [0xAA, 0xBB])
      [⟨[0xAA, 0xBB], .took 1⟩, ⟨[0xBB], .took 1⟩] port := by
  have going : ¬ (Outcome.took 1).Ends trickling.settings.timeout trickling.port.now.1 := by
    rintro (none | ⟨fault, eq⟩)
    · cases none
    · cases eq
  exact ⟨_, accounted_of_all
    (.next (by decide) (.took rfl) going (.next (by decide) (.took rfl) going (.done _ _)))
    (by with_unfolding_all rfl) (by with_unfolding_all rfl)⟩

theorem trickling_collected :
    ∃ port, Collected 2 trickling (trickling.receive 2) [⟨2, .part [0xAA] 12000000⟩] port := by
  have ends : (Heard.part [0xAA] 12000000).Ends trickling.settings.timeout trickling.port.now.1 :=
    .inl ⟨12000000, rfl, by decide⟩
  have read : trickling.port.now.2.read 2 = (.ok [0xAA], (trickling.port.now.2.read 2).2) := rfl
  have hears : Hears trickling.port.now.2 ⟨2, .part [0xAA] 12000000⟩
      (trickling.port.now.2.read 2).2.now.2 := .part read (by decide)
  have port : (trickling.receive 2).link.port =
      { (trickling.port.now.2.read 2).2.now.2 with looks := 2 } := by with_unfolding_all rfl
  exact ⟨_, collected_of_ended (.done _ _) Nat.two_pos hears ends (by with_unfolding_all rfl) port⟩

/-- Two bytes are sent in two writes although the time is over behind the first one, and
of two bytes that are asked for only the first is waited for. -/
theorem keeps_time_iff_trickling :
    ¬ KeepsTime 10000000 0 (fun i => 12000000 * (i + 1)) 2 (fun i => counted
        (([⟨[0xAA, 0xBB], .took 1⟩, ⟨[0xBB], .took 1⟩] : List Attempt).take (i + 1)) < 2)
        (∃ cause, (trickling.send [0xAA, 0xBB]).result = .error cause) ∧
      KeepsTime 10000000 0 (fun i => 12000000 * (i + 1)) 1 (fun i => (gathered
        (([⟨2, .part [0xAA] 12000000⟩] : List Hearing).take (i + 1))).length < 2)
        (∃ cause, (trickling.receive 2).result = .error cause) := by
  obtain ⟨receives, sends⟩ := keeps_time_iff trickling fun i => 12000000 * (i + 1)
  obtain ⟨sent_port, accounted⟩ := trickling_accounted
  obtain ⟨heard_port, collected⟩ := trickling_collected
  refine ⟨fun keeps => ?_, ?_⟩
  · have timeline : Timeline trickling.port.now.1
        (([⟨[0xAA, 0xBB], .took 1⟩, ⟨[0xBB], .took 1⟩] : List Attempt).map (·.outcome.time?))
        fun i => 12000000 * (i + 1) := by
      refine ⟨Nat.zero_le _, fun i => by omega, fun i time at_i => ?_⟩
      have mem := List.mem_of_getElem? at_i
      simp [Outcome.time?] at mem
    have in_time := (sends _ _ _ accounted timeline).1 keeps 0
      ⟨⟨_, 1, rfl, rfl, by decide⟩, by decide⟩
    exact absurd in_time (by decide)
  · refine receives _ _ _ collected ⟨Nat.zero_le _, fun i => by omega, fun i time at_i => ?_⟩
    cases i with
    | zero =>
      cases at_i
      decide
    | succ i => cases at_i

end SerialLink

end LogicCapture.Serial
