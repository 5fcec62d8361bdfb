import LogicCapture.Proofs.Serial.Sending

/-!
# What a receive hears from the port

A receive over a serial link is a row of reads, each for what is still missing.
`Port.Hears` says what came of one of them, `Port.HearsOn` that a row of them goes on
until nothing is missing or one of them ends it. `SerialLink.receive_collected` puts
together what this means for the bytes and for the result of every receive over every
port: the reply is what the port delivered in these reads and nothing else is taken from
it.
-/

namespace LogicCapture.Serial

/-! ## Reads -/

/-- What came of a read. -/
inductive Heard where
  /-- All bytes that there was room for. -/
  | filled (bytes : List UInt8)
  /-- Fewer bytes, perhaps none, and then the clock showed `time`. -/
  | part (bytes : List UInt8) (time : Nat)
  /-- Only the port's own time ran out, and then the clock showed `time`. -/
  | waited (time : Nat)
  | failed (fault : Fault)

/-- A read with room for so many bytes, and what came of it. -/
structure Hearing where
  room : Nat
  heard : Heard

namespace Heard

/-- The bytes that the port delivered. -/
def bytes : Heard → List UInt8
  | filled bytes | part bytes _ => bytes
  | waited _ | failed _ => []

/-- What the clock showed behind the read, if it was looked at. -/
def time? : Heard → Option Nat
  | part _ time | waited time => some time
  | filled _ | failed _ => none

/-- A read that leaves bytes missing is the last one once the time for the transfer is
over. -/
def GivesUp (timeout start : Nat) (h : Heard) : Prop :=
  ∃ time, h.time? = some time ∧ timeout ≤ time - start

/-- The transfer is over after this read, and bytes are missing. -/
def Ends (timeout start : Nat) (h : Heard) : Prop :=
  h.GivesUp timeout start ∨ ∃ fault, h = failed fault

end Heard

/-- The bytes that a row of reads delivered, in order. -/
def gathered (hearings : List Hearing) : List UInt8 := hearings.flatMap (·.heard.bytes)

theorem gathered_cons (h : Hearing) (hearings : List Hearing) :
    gathered (h :: hearings) = h.heard.bytes ++ gathered hearings := List.flatMap_cons

theorem gathered_concat (hearings : List Hearing) (h : Hearing) :
    gathered (hearings ++ [h]) = gathered hearings ++ h.heard.bytes := by
  rw [gathered, List.flatMap_append, List.flatMap_singleton, gathered]

namespace Port

/-- The port was read from with so much room, and was left like this. The clock is looked
at unless the read failed or filled its room. -/
inductive Hears : Port → Hearing → Port → Prop
  | filled {p q : Port} {room : Nat} {bytes : List UInt8} :
    p.read room = (.ok bytes, q) → bytes.length = room → Hears p ⟨room, .filled bytes⟩ q
  | part {p q : Port} {room : Nat} {bytes : List UInt8} :
    p.read room = (.ok bytes, q) → bytes.length < room →
    Hears p ⟨room, .part bytes q.now.1⟩ q.now.2
  | waited {p q : Port} {room : Nat} {fault : Fault} :
    p.read room = (.error fault, q) → fault.timedOut = true →
    Hears p ⟨room, .waited q.now.1⟩ q.now.2
  | failed {p q : Port} {room : Nat} {fault : Fault} :
    p.read room = (.error fault, q) → fault.timedOut = false →
    Hears p ⟨room, .failed fault⟩ q

/-- These reads were made on the port, one after the other and no others. -/
inductive Listens : Port → List Hearing → Port → Prop
  | done (p : Port) : Listens p [] p
  | next {p q r : Port} {h : Hearing} {rest : List Hearing} :
    Hears p h q → Listens q rest r → Listens p (h :: rest) r

/-- Reads that do not end the transfer, each of them for all bytes that are missing; the
second list is what has arrived after them. -/
inductive HearsOn (timeout start length : Nat) :
    List UInt8 → Port → List Hearing → List UInt8 → Port → Prop
  | done (got : List UInt8) (p : Port) : HearsOn timeout start length got p [] got p
  | next {got all : List UInt8} {p q r : Port} {heard : Heard} {hearings : List Hearing} :
    got.length < length → Hears p ⟨length - got.length, heard⟩ q → ¬ heard.Ends timeout start →
    HearsOn timeout start length (got ++ heard.bytes) q hearings all r →
    HearsOn timeout start length got p (⟨length - got.length, heard⟩ :: hearings) all r

variable {timeout start length room : Nat} {p q r : Port} {h : Hearing} {hearings : List Hearing}
  {got all bytes : List UInt8}

/-- What a read delivers is the front of the stream, and fits into its room. -/
theorem read_of_ok (outcome : p.read room = (.ok bytes, q)) :
    bytes.length ≤ room ∧ bytes ++ q.stream = p.stream := by
  unfold read at outcome
  split at outcome
  · cases outcome
  · next given rest reads =>
    cases outcome
    refine ⟨List.length_take_le room given, ?_⟩
    rw [stream, stream, reads, List.flatMap_cons]
    change given.take room ++
      (if given.length ≤ room then rest else .bytes (given.drop room) :: rest).flatMap
        ReadAnswer.arrived = _
    split
    · next fits => rw [List.take_of_length_le fits, ReadAnswer.arrived]
    · rw [List.flatMap_cons, ReadAnswer.arrived, ← List.append_assoc, List.take_append_drop,
        ReadAnswer.arrived]
  · cases outcome

theorem read_of_error {fault : Fault} (outcome : p.read room = (.error fault, q)) :
    q.stream = p.stream := by
  unfold read at outcome
  split at outcome
  · cases outcome
    rfl
  · cases outcome
  · next reads =>
    cases outcome
    rw [stream, stream, reads]
    rfl

theorem read_events {result : Except Fault (List UInt8)} (outcome : p.read room = (result, q)) :
    q.events = .read room :: p.events := by
  unfold read at outcome
  split at outcome <;> cases outcome <;> rfl

theorem Hears.length_le (hears : Hears p h q) : h.heard.bytes.length ≤ h.room := by
  cases hears with
  | filled _ exactly => exact Nat.le_of_eq exactly
  | part _ fewer => exact Nat.le_of_lt fewer
  | waited _ _ | failed _ _ => exact Nat.zero_le _

/-- A read that ends the transfer leaves bytes missing. -/
theorem Hears.length_lt (hears : Hears p h q) (ends : h.heard.Ends timeout start)
    (some_room : 0 < h.room) : h.heard.bytes.length < h.room := by
  cases hears with
  | filled _ _ =>
    rcases ends with ⟨time, eq, -⟩ | ⟨fault, eq⟩
    · cases eq
    · cases eq
  | part _ fewer => exact fewer
  | waited _ _ | failed _ _ => exact some_room

theorem Hears.stream (hears : Hears p h q) : h.heard.bytes ++ q.stream = p.stream := by
  cases hears with
  | filled outcome _ => exact (read_of_ok outcome).2
  | part outcome _ => exact (read_of_ok outcome).2
  | waited outcome _ | failed outcome _ =>
    have same := read_of_error outcome
    exact same

theorem Hears.events (hears : Hears p h q) : q.events = .read h.room :: p.events := by
  cases hears with
  | filled outcome _ | part outcome _ | waited outcome _ | failed outcome _ =>
    have recorded := read_events outcome
    exact recorded

theorem Listens.concat (listens : Listens p hearings q) (hears : Hears q h r) :
    Listens p (hearings ++ [h]) r := by
  induction listens with
  | done p => exact .next hears (.done r)
  | next first _ ih => exact .next first (ih hears)

theorem Listens.stream (listens : Listens p hearings q) :
    gathered hearings ++ q.stream = p.stream := by
  induction listens with
  | done p => rfl
  | next hears _ ih => rw [gathered_cons, List.append_assoc, ih, hears.stream]

theorem Listens.events (listens : Listens p hearings q) :
    q.events = (hearings.map (.read ·.room)).reverse ++ p.events := by
  induction listens with
  | done p => rfl
  | next hears _ ih =>
    rw [ih, hears.events, List.map_cons, List.reverse_cons, List.append_assoc,
      List.singleton_append]

theorem HearsOn.listens (hears_on : HearsOn timeout start length got p hearings all q) :
    Listens p hearings q := by
  induction hears_on with
  | done got p => exact .done p
  | next _ hears _ _ ih => exact .next hears ih

theorem HearsOn.all_eq (hears_on : HearsOn timeout start length got p hearings all q) :
    all = got ++ gathered hearings := by
  induction hears_on with
  | done got p => exact (List.append_nil got).symm
  | next _ _ _ _ ih => rw [ih, gathered_cons, List.append_assoc]

/-- Read number `i` asks for everything that the reads before it left missing. -/
theorem HearsOn.room_eq (hears_on : HearsOn timeout start length got p hearings all q) {i : Nat}
    (at_i : hearings[i]? = some h) :
    h.room = length - (got.length + (gathered (hearings.take i)).length) ∧ 0 < h.room := by
  induction hears_on generalizing i with
  | done got p => cases at_i
  | next missing _ _ _ ih =>
    cases i with
    | zero =>
      cases at_i
      exact ⟨rfl, Nat.sub_pos_of_lt missing⟩
    | succ i =>
      obtain ⟨room, positive⟩ := ih at_i
      refine ⟨?_, positive⟩
      rw [List.take_succ_cons, gathered_cons, List.length_append, ← Nat.add_assoc,
        ← List.length_append]
      exact room

theorem HearsOn.not_ends (hears_on : HearsOn timeout start length got p hearings all q)
    (mem : h ∈ hearings) : ¬ h.heard.Ends timeout start := by
  induction hears_on with
  | done got p => cases mem
  | next _ _ going _ ih =>
    rcases List.mem_cons.1 mem with rfl | mem
    · exact going
    · exact ih mem

/-! ## Reads that were waited for -/

theorem hears_of_error {text : String} (outcome : p.hear room = (.error text, q)) :
    ∃ fault, Hears p ⟨room, .failed fault⟩ q ∧ fault.text = text := by
  unfold hear at outcome
  split at outcome
  · cases outcome
  · next fault after read =>
    obtain ⟨result, rfl⟩ := Prod.mk.inj outcome
    split at result
    · cases result
    · next other =>
      cases result
      exact ⟨fault, .failed read (Bool.of_not_eq_true other), rfl⟩

theorem hears_of_enough (outcome : p.hear room = (.ok bytes, q)) (some_room : 0 < room)
    (enough : room ≤ bytes.length) : Hears p ⟨room, .filled bytes⟩ q := by
  unfold hear at outcome
  split at outcome
  · next read =>
    cases outcome
    exact .filled read (Nat.le_antisymm (read_of_ok read).1 enough)
  · obtain ⟨result, -⟩ := Prod.mk.inj outcome
    split at result
    · cases result
      exact absurd some_room (Nat.not_lt_of_le enough)
    · cases result

theorem hears_of_fewer (outcome : p.hear room = (.ok bytes, q)) (fewer : bytes.length < room) :
    ∃ heard, Hears p ⟨room, heard⟩ q.now.2 ∧ heard.bytes = bytes ∧ heard.time? = some q.now.1 := by
  unfold hear at outcome
  split at outcome
  · next read =>
    cases outcome
    exact ⟨_, .part read fewer, rfl, rfl⟩
  · next fault after read =>
    obtain ⟨result, rfl⟩ := Prod.mk.inj outcome
    split at result
    · next timed_out =>
      cases result
      exact ⟨_, .waited read timed_out, rfl, rfl⟩
    · cases result

end Port

/-! ## The reads of a receive -/

/-- The error of a transfer of so many bytes that took too long. -/
def overdue (length : Nat) (arrived : List UInt8) (elapsed : Nat) : LinkError :=
  if arrived = [] then .timeout (elapsed / 1000000) else .shortRead length arrived.length

/-- The error with which a read ends a transfer. -/
def Heard.error (length : Nat) (arrived : List UInt8) (elapsed : Nat) : Heard → LinkError
  | failed fault => .io fault.text
  | filled _ | part _ _ | waited _ => overdue length arrived elapsed

section Error

variable {length elapsed timeout start time : Nat} {arrived : List UInt8} {heard : Heard}

theorem Heard.error_of_time (looked : heard.time? = some time) :
    heard.error length arrived elapsed = overdue length arrived elapsed := by
  cases heard with
  | filled | part | waited => rfl
  | failed => cases looked

theorem Heard.GivesUp.error_eq (gives_up : heard.GivesUp timeout start) :
    heard.error length arrived elapsed = overdue length arrived elapsed := by
  obtain ⟨time, looked, -⟩ := gives_up
  exact error_of_time looked

theorem overdue_ne_io {text : String} : overdue length arrived elapsed ≠ .io text := by
  unfold overdue
  split <;> nofun

theorem overdue_eq_timeout_iff {millis : Nat} :
    overdue length arrived elapsed = .timeout millis ↔
      arrived = [] ∧ millis = elapsed / 1000000 := by
  unfold overdue
  split
  · next silent =>
    constructor
    · rintro ⟨rfl⟩
      exact ⟨silent, rfl⟩
    · rintro ⟨-, rfl⟩
      rfl
  · next some_arrived => exact iff_of_false nofun fun ⟨silent, _⟩ => some_arrived silent

theorem overdue_eq_shortRead_iff {expected actual : Nat} :
    overdue length arrived elapsed = .shortRead expected actual ↔
      expected = length ∧ actual = arrived.length ∧ 0 < actual := by
  unfold overdue
  split
  · next silent =>
    refine iff_of_false nofun fun ⟨_, all, positive⟩ => ?_
    rw [silent] at all
    exact Nat.ne_of_gt positive all
  · next some_arrived =>
    constructor
    · rintro ⟨rfl, rfl⟩
      exact ⟨rfl, rfl, List.length_pos_iff.2 some_arrived⟩
    · rintro ⟨rfl, rfl, -⟩
      rfl

theorem Heard.error_eq_io_iff {text : String} : heard.error length arrived elapsed = .io text ↔
    ∃ fault, heard = failed fault ∧ fault.text = text := by
  cases heard with
  | filled | part | waited => exact iff_of_false overdue_ne_io fun ⟨_, eq, _⟩ => nomatch eq
  | failed fault =>
    constructor
    · rintro ⟨rfl⟩
      exact ⟨fault, rfl, rfl⟩
    · rintro ⟨_, ⟨rfl⟩, rfl⟩
      rfl

theorem Heard.Ends.error_eq_timeout_iff {millis : Nat} (ends : heard.Ends timeout start) :
    heard.error length arrived elapsed = .timeout millis ↔
      arrived = [] ∧ millis = elapsed / 1000000 ∧ heard.GivesUp timeout start := by
  rcases ends with gives_up | ⟨fault, rfl⟩
  · rw [gives_up.error_eq, overdue_eq_timeout_iff, and_iff_left gives_up]
  · exact iff_of_false nofun fun ⟨_, _, _, looked, _⟩ => nomatch looked

theorem Heard.Ends.error_eq_shortRead_iff {expected actual : Nat}
    (ends : heard.Ends timeout start) :
    heard.error length arrived elapsed = .shortRead expected actual ↔
      expected = length ∧ actual = arrived.length ∧ 0 < actual ∧ heard.GivesUp timeout start := by
  rcases ends with gives_up | ⟨fault, rfl⟩
  · rw [gives_up.error_eq, overdue_eq_shortRead_iff, and_iff_left gives_up]
  · exact iff_of_false nofun fun ⟨_, _, _, _, looked, _⟩ => nomatch looked

theorem Heard.error_cases (length : Nat) (arrived : List UInt8) (elapsed : Nat) (heard : Heard) :
    (∃ millis, heard.error length arrived elapsed = .timeout millis) ∨
      (∃ expected actual, heard.error length arrived elapsed = .shortRead expected actual) ∨
      ∃ text, heard.error length arrived elapsed = .io text := by
  cases heard with
  | filled | part | waited =>
    by_cases silent : arrived = []
    · exact .inl ⟨_, if_pos silent⟩
    · exact .inr (.inl ⟨_, _, if_neg silent⟩)
  | failed fault => exact .inr (.inr ⟨fault.text, rfl⟩)

end Error

theorem Heard.ends_iff_of_time {timeout start time : Nat} {heard : Heard}
    (looked : heard.time? = some time) : heard.Ends timeout start ↔ timeout ≤ time - start := by
  constructor
  · rintro (⟨shown, eq, late⟩ | ⟨fault, rfl⟩)
    · cases looked.symm.trans eq
      exact late
    · cases looked
  · exact fun late => .inl ⟨time, looked, late⟩

namespace SerialLink

open Port

/-- The reads of a transfer go on until nothing is missing or one of them ends it. -/
theorem receiveRest_hearsOn (length start : Nat) (got : List UInt8) (l : SerialLink)
    (within : got.length ≤ length) :
    ∃ hearings all q, HearsOn l.settings.timeout start length got l.port hearings all q ∧
      (all.length = length ∧ (receiveRest length start got l).result = .ok all ∧
          (receiveRest length start got l).link.port = q ∨
        all.length < length ∧ ∃ heard r looks, Hears q ⟨length - all.length, heard⟩ r ∧
          heard.Ends l.settings.timeout start ∧
          (receiveRest length start got l).result =
            .error (heard.error length (all ++ heard.bytes) (r.now.1 - start)) ∧
          (receiveRest length start got l).link.port = { r with looks }) := by
  fun_induction receiveRest length start got l with
  | case1 got l enough =>
    exact ⟨[], got, l.port, .done _ _, .inl ⟨Nat.le_antisymm within enough, rfl, rfl⟩⟩
  | case2 got l missing text port outcome =>
    obtain ⟨fault, hears, rfl⟩ := hears_of_error outcome
    exact ⟨[], got, l.port, .done _ _, .inr ⟨Nat.lt_of_not_le missing, _, port, port.looks, hears,
      .inr ⟨fault, rfl⟩, rfl, rfl⟩⟩
  | case3 got l missing bytes port outcome whole enough =>
    have some_missing := Nat.lt_of_not_le missing
    have long : whole.length = got.length + bytes.length := List.length_append
    have hears := hears_of_enough outcome (by omega) (by omega)
    have fits := hears.length_le
    have going : ¬ (Heard.filled bytes).Ends l.settings.timeout start := by
      rintro (⟨time, eq, -⟩ | ⟨fault, eq⟩)
      · cases eq
      · cases eq
    refine ⟨_, whole, port, .next some_missing hears going (.done _ _), .inl ⟨?_, rfl, rfl⟩⟩
    dsimp only [Heard.bytes] at fits
    omega
  | case4 got l missing bytes port outcome whole short waited late silent later =>
    have long : whole.length = got.length + bytes.length := List.length_append
    obtain ⟨heard, hears, rfl, looked⟩ := hears_of_fewer outcome (by omega)
    refine ⟨[], got, l.port, .done _ _, .inr ⟨Nat.lt_of_not_le missing, heard, port.now.2, _, hears,
      (Heard.ends_iff_of_time looked).2 late, ?_, rfl⟩⟩
    rw [Heard.error_of_time looked, overdue, if_pos silent]
  | case5 got l missing bytes port outcome whole short waited late some_heard =>
    have long : whole.length = got.length + bytes.length := List.length_append
    obtain ⟨heard, hears, rfl, looked⟩ := hears_of_fewer outcome (by omega)
    refine ⟨[], got, l.port, .done _ _, .inr ⟨Nat.lt_of_not_le missing, heard, port.now.2, _, hears,
      (Heard.ends_iff_of_time looked).2 late, ?_, rfl⟩⟩
    rw [Heard.error_of_time looked, overdue, if_neg some_heard]
  | case6 got l missing bytes port outcome whole short waited in_time ih =>
    have long : whole.length = got.length + bytes.length := List.length_append
    obtain ⟨heard, hears, rfl, looked⟩ := hears_of_fewer outcome (by omega)
    obtain ⟨hearings, all, q, hears_on, ended⟩ := ih (Nat.le_of_not_le short)
    have going : ¬ heard.Ends l.settings.timeout start :=
      fun ends => in_time ((Heard.ends_iff_of_time looked).1 ends)
    exact ⟨_, all, q, .next (Nat.lt_of_not_le missing) hears going hears_on, ended⟩

/-- What a receive makes of its reads. The port is the one after the last of them. -/
structure Collected (length : Nat) (l : SerialLink) (t : Transfer SerialLink (List UInt8))
    (hearings : List Hearing) (port : Port) : Prop where
  /-- The reads are what was done with the port once the clock had been looked at. -/
  made : Listens l.port.now.2 hearings port
  /-- Each asks for exactly the bytes that the reads before it left missing, and some are. -/
  asked : ∀ i h, hearings[i]? = some h →
    h.room = length - (gathered (hearings.take i)).length ∧ 0 < h.room
  within : (gathered hearings).length ≤ length
  /-- Nothing else is done with the port. -/
  events : t.link.port.events = (hearings.map (.read ·.room)).reverse ++ l.port.events
  /-- The bytes behind those that were gathered are still to arrive. -/
  unread : gathered hearings ++ t.link.port.stream = l.port.stream
  ok : ∀ reply, t.result = .ok reply ↔ reply = gathered hearings ∧ reply.length = length
  timeout : ∀ millis, t.result = .error (.timeout millis) ↔
    gathered hearings = [] ∧ millis = (port.now.1 - l.port.now.1) / 1000000 ∧
      ∃ h ∈ hearings, h.heard.GivesUp l.settings.timeout l.port.now.1
  short : ∀ expected actual, t.result = .error (.shortRead expected actual) ↔
    expected = length ∧ actual = (gathered hearings).length ∧ 0 < actual ∧ actual < length ∧
      ∃ h ∈ hearings, h.heard.GivesUp l.settings.timeout l.port.now.1
  failed : ∀ text, t.result = .error (.io text) ↔
    ∃ h ∈ hearings, ∃ fault, h.heard = .failed fault ∧ fault.text = text
  no_other : ∀ cause, t.result = .error cause → (∃ millis, cause = .timeout millis) ∨
    (∃ expected actual, cause = .shortRead expected actual) ∨ ∃ text, cause = .io text
  /-- A read that ends the transfer is the last one, and bytes are missing then. -/
  ends : ∀ i h, hearings[i]? = some h → h.heard.Ends l.settings.timeout l.port.now.1 →
    i + 1 = hearings.length ∧ (gathered hearings).length < length

variable {length looks : Nat} {l : SerialLink} {hearings : List Hearing} {all : List UInt8}
  {q r : Port} {t : Transfer SerialLink (List UInt8)}

theorem asked_of_hearsOn {h : Hearing} {i : Nat}
    (hears_on : HearsOn l.settings.timeout l.port.now.1 length [] l.port.now.2 hearings all q)
    (at_i : hearings[i]? = some h) :
    h.room = length - (gathered (hearings.take i)).length ∧ 0 < h.room := by
  have room := hears_on.room_eq at_i
  rwa [List.length_nil, Nat.zero_add] at room

/-- A transfer whose reads brought all bytes. -/
theorem collected_of_all
    (hears_on : HearsOn l.settings.timeout l.port.now.1 length [] l.port.now.2 hearings all q)
    (enough : all.length = length) (result : t.result = .ok all) (port : t.link.port = q) :
    Collected length l t hearings q := by
  have brought : gathered hearings = all := hears_on.all_eq.symm
  have none_ends {IsEnd : Hearing → Prop}
      (ends : ∀ h, IsEnd h → h.heard.Ends l.settings.timeout l.port.now.1) :
      ¬ ∃ h ∈ hearings, IsEnd h :=
    fun ⟨h, mem, is_end⟩ => hears_on.not_ends mem (ends h is_end)
  refine ⟨hears_on.listens, fun i h at_i => asked_of_hearsOn hears_on at_i,
    Nat.le_of_eq (brought ▸ enough), port ▸ hears_on.listens.events,
    port ▸ hears_on.listens.stream, fun reply => ?_, fun millis => ?_, fun expected actual => ?_,
    fun text => ?_, fun cause failed => ?_, fun i h at_i ends => ?_⟩
  · rw [result, brought]
    constructor
    · rintro ⟨rfl⟩
      exact ⟨rfl, enough⟩
    · rintro ⟨rfl, -⟩
      rfl
  · rw [result]
    exact iff_of_false nofun fun ⟨_, _, gives_up⟩ => none_ends (fun _ => .inl) gives_up
  · rw [result]
    exact iff_of_false nofun fun ⟨_, _, _, _, gives_up⟩ => none_ends (fun _ => .inl) gives_up
  · rw [result]
    exact iff_of_false nofun (none_ends fun _ ⟨fault, eq, _⟩ => .inr ⟨fault, eq⟩)
  · rw [result] at failed
    cases failed
  · exact absurd ends (hears_on.not_ends (List.mem_of_getElem? at_i))

/-- A transfer that is ended by a read. -/
theorem collected_of_ended {heard : Heard}
    (hears_on : HearsOn l.settings.timeout l.port.now.1 length [] l.port.now.2 hearings all q)
    (missing : all.length < length) (hears : Hears q ⟨length - all.length, heard⟩ r)
    (ends : heard.Ends l.settings.timeout l.port.now.1)
    (result : t.result =
      .error (heard.error length (all ++ heard.bytes) (r.now.1 - l.port.now.1)))
    (port : t.link.port = { r with looks }) :
    Collected length l t (hearings ++ [⟨length - all.length, heard⟩]) r := by
  have brought : gathered (hearings ++ [⟨length - all.length, heard⟩]) = all ++ heard.bytes := by
    rw [gathered_concat, hears_on.all_eq, List.nil_append]
  have fewer : (all ++ heard.bytes).length < length := by
    have part := hears.length_lt ends (Nat.sub_pos_of_lt missing)
    dsimp only at part
    rw [List.length_append]
    omega
  have listens := hears_on.listens.concat hears
  have at_end (IsEnd : Heard → Prop)
      (is_end_ends : ∀ h, IsEnd h → h.Ends l.settings.timeout l.port.now.1) :
      (∃ h ∈ hearings ++ [⟨length - all.length, heard⟩], IsEnd h.heard) ↔ IsEnd heard :=
    exists_mem_concat_iff (fun h : Hearing => IsEnd h.heard)
      fun h before is_end => hears_on.not_ends before (is_end_ends _ is_end)
  refine ⟨listens, fun i h at_i => ?_, Nat.le_of_lt (brought ▸ fewer), port ▸ listens.events,
    port ▸ listens.stream, fun reply => ?_, fun millis => ?_, fun expected actual => ?_,
    fun text => ?_, fun cause failed => ?_, fun i h at_i h_ends => ?_⟩
  · rcases getElem?_concat_eq_some at_i with ⟨before, lt⟩ | ⟨rfl, rfl⟩
    · rw [List.take_append_of_le_length (Nat.le_of_lt lt)]
      exact asked_of_hearsOn hears_on before
    · rw [List.take_left, hears_on.all_eq, List.nil_append]
      refine ⟨rfl, ?_⟩
      rw [hears_on.all_eq, List.nil_append] at missing
      exact Nat.sub_pos_of_lt missing
  · rw [result, brought]
    refine iff_of_false nofun fun ⟨whole, long⟩ => ?_
    rw [← whole, long] at fewer
    exact Nat.lt_irrefl _ fewer
  · rw [result, brought, Except.error.injEq, at_end _ fun _ => .inl]
    exact ends.error_eq_timeout_iff
  · rw [result, brought, Except.error.injEq, at_end _ fun _ => .inl, ends.error_eq_shortRead_iff]
    constructor
    · rintro ⟨total, rfl, positive, gives_up⟩
      exact ⟨total, rfl, positive, fewer, gives_up⟩
    · rintro ⟨total, arrived, positive, -, gives_up⟩
      exact ⟨total, arrived, positive, gives_up⟩
  · rw [result, Except.error.injEq, Heard.error_eq_io_iff]
    exact (at_end (fun o => ∃ fault, o = .failed fault ∧ fault.text = text)
      fun _ ⟨fault, eq, _⟩ => .inr ⟨fault, eq⟩).symm
  · rw [result] at failed
    cases failed
    exact heard.error_cases _ _ _
  · rcases getElem?_concat_eq_some at_i with ⟨before, -⟩ | ⟨rfl, rfl⟩
    · exact absurd h_ends (hears_on.not_ends (List.mem_of_getElem? before))
    · rw [brought, List.length_append, List.length_singleton]
      exact ⟨rfl, fewer⟩

theorem exists_collected (length : Nat) (l : SerialLink) :
    ∃ hearings port, Collected length l (l.receive length) hearings port := by
  obtain ⟨hearings, all, q, hears_on, ended⟩ :=
    receiveRest_hearsOn length l.port.now.1 [] l.started (Nat.zero_le length)
  rcases ended with ⟨enough, result, port⟩ | ⟨missing, heard, r, looks, hears, ends, result, port⟩
  · exact ⟨hearings, q, collected_of_all hears_on enough result port⟩
  · exact ⟨_, r, collected_of_ended hears_on missing hears ends result port⟩

/-- To receive nothing the port is not asked for anything. -/
theorem receive_zero (l : SerialLink) : l.receive 0 = ⟨.ok [], l.started, []⟩ := by
  change receiveRest 0 l.port.now.1 [] l.started = _
  rw [receiveRest]
  exact if_pos (Nat.le_refl 0)

/-- Every receive that a buffer can hold collects its reply: there is a row of reads, each
for exactly the bytes that are still missing, and told by them is what is taken from the
port, and what the result is. The bytes that the reads delivered are the reply if there
are as many of them as asked, whatever the clock shows by then. Otherwise the last read
left bytes missing when the time for the transfer was over, or it failed for good; the
error tells which, and how many bytes were heard until then. -/
theorem receive_collected (l : SerialLink) :
    (∀ length, length ≤ mostBytes ∧ (∃ t hearings port, l.receiveWithin length = some t ∧
        Collected length l t hearings port) ∨
      mostBytes < length ∧ l.receiveWithin length = none) ∧
    l.receiveWithin 0 = some ⟨.ok [], l.started, []⟩ := by
  refine ⟨fun length => ?_, ?_⟩
  · rcases Nat.lt_or_ge mostBytes length with beyond | fits
    · exact .inr ⟨beyond, if_neg (Nat.not_le_of_lt beyond)⟩
    · obtain ⟨hearings, port, collected⟩ := exists_collected length l
      exact .inl ⟨fits, l.receive length, hearings, port, if_pos fits, collected⟩
  · rw [← receive_zero]
    exact if_pos (Nat.zero_le mostBytes)

end SerialLink

end LogicCapture.Serial
