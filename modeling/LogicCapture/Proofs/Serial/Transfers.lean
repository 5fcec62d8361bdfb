import LogicCapture.Proofs.Session.Moves
import LogicCapture.Serial.Link

/-!
# Transfers over a serial port

A transfer over a serial link is a run of writes and a flush, or a run of reads.
`Port.Transfers` says what such runs add to the record of a port, and which bytes
the port took in them. A send that goes well hands over all its bytes in order, one
that fails a prefix of them; to receive hands over nothing. So transfers that follow
a list of moves hand over a prefix of what the moves send.
-/

namespace LogicCapture

/-- The bytes that are to be sent. -/
def Ask.bytes : Ask → List UInt8
  | send bytes => bytes
  | receive _ => []

namespace Serial

/-! ## The record of a port -/

namespace Event

/-- It was done in a transfer. -/
def IsTransfer : Event → Prop
  | wrote _ | writeFailed | flushed | read _ => True
  | listed | opened .. | cleared => False

/-- The bytes that the port took. -/
def bytes : Event → List UInt8
  | wrote bytes => bytes
  | _ => []

end Event

namespace Port

/-- All bytes that the port took, in order. -/
def written (p : Port) : List UInt8 := p.events.reverse.flatMap Event.bytes

/-- Transfers made the first port the second one, which took these bytes in them. The clock
is the same one. -/
structure Transfers (p q : Port) (bytes : List UInt8) : Prop where
  clock : q.clock = p.clock
  events : ∃ made, q.events = made ++ p.events ∧ (∀ e ∈ made, e.IsTransfer) ∧
    made.reverse.flatMap Event.bytes = bytes

variable {p q r : Port} {bytes more : List UInt8}

theorem Transfers.of_events (clock : q.clock = p.clock) (same : q.events = p.events) :
    Transfers p q [] :=
  ⟨clock, [], same, nofun, rfl⟩

theorem Transfers.record {e : Event} (transfer : e.IsTransfer) (clock : q.clock = p.clock)
    (same : q.events = p.events) : Transfers p (q.record e) e.bytes := by
  refine ⟨clock, [e], ?_, List.forall_mem_singleton.2 transfer, ?_⟩
  · rw [Port.record, same, List.singleton_append]
  · rw [List.reverse_singleton, List.flatMap_singleton]

theorem Transfers.trans (first : Transfers p q bytes) (second : Transfers q r more) :
    Transfers p r (bytes ++ more) := by
  obtain ⟨clock, made, events, transfers, rfl⟩ := first
  obtain ⟨clock', made', events', transfers', rfl⟩ := second
  refine ⟨clock'.trans clock, made' ++ made, ?_,
    List.forall_mem_append.2 ⟨transfers', transfers⟩, ?_⟩
  · rw [events', events, List.append_assoc]
  · rw [List.reverse_append, List.flatMap_append]

theorem Transfers.written (transfers : Transfers p q bytes) : q.written = p.written ++ bytes := by
  obtain ⟨-, made, events, -, rfl⟩ := transfers
  rw [Port.written, events, List.reverse_append, List.flatMap_append, Port.written]

theorem now_transfers (p : Port) : Transfers p p.now.2 [] := .of_events rfl rfl

theorem write_transfers_of_ok {offered : List UInt8} {taken : Nat}
    (outcome : p.write offered = (.ok taken, q)) : Transfers p q (offered.take taken) := by
  unfold write at outcome
  split at outcome
  · cases outcome
    rw [List.take_length]
    exact .record (e := .wrote offered) trivial rfl rfl
  · next most rest _ =>
    cases outcome
    have same : offered.take (offered.take most).length = offered.take most := by
      rw [List.length_take, ← List.take_eq_take_min]
    rw [same]
    exact .record (e := .wrote (offered.take most)) trivial rfl rfl
  · cases outcome

theorem write_transfers_of_error {offered : List UInt8} {fault : Fault}
    (outcome : p.write offered = (.error fault, q)) : Transfers p q [] := by
  unfold write at outcome
  split at outcome
  · cases outcome
  · cases outcome
  · cases outcome
    exact .record (e := .writeFailed) trivial rfl rfl

theorem flush_snd (p : Port) :
    p.flush.2 = { p with flushes := p.flushes.tail }.record .flushed := by
  unfold flush
  split <;> rfl

theorem flush_transfers (p : Port) : Transfers p p.flush.2 [] := by
  rw [flush_snd]
  exact .record (e := .flushed) trivial rfl rfl

theorem read_transfers (room : Nat) (p : Port) : Transfers p (p.read room).2 [] := by
  unfold read
  split <;> exact .record (e := .read room) trivial rfl rfl

theorem hear_snd (room : Nat) (p : Port) : (p.hear room).2 = (p.read room).2 := by
  unfold hear
  split
  · next outcome => rw [outcome]
  · next outcome => rw [outcome]

theorem hear_transfers {room : Nat} {result : Except String (List UInt8)}
    (outcome : p.hear room = (result, q)) : Transfers p q [] := by
  have heard := read_transfers room p
  rwa [← hear_snd, outcome] at heard

end Port

/-! ## Sending -/

namespace SerialLink

open Port

/-- The port took the first of these bytes, all of them if the transfer went well; the
settings are as before. -/
structure Sends (bytes : List UInt8) (l : SerialLink) (t : Transfer SerialLink Unit) : Prop where
  transfers : ∃ taken, taken <+: bytes ∧ Transfers l.port t.link.port taken ∧
    (t.result = .ok () → taken = bytes)
  settings : t.link.settings = l.settings

variable {bytes : List UInt8} {l next after : SerialLink} {t : Transfer SerialLink Unit}
  {accepted : List Nat}

theorem Sends.failed {cause : LinkError} (transfers : Transfers l.port after.port [])
    (settings : after.settings = l.settings) : Sends bytes l ⟨.error cause, after, accepted⟩ :=
  ⟨⟨[], List.nil_prefix, transfers, nofun⟩, settings⟩

/-- The rest of a transfer after a part of the bytes was taken. -/
theorem Sends.after_part {count : Nat} (rest : Sends (bytes.drop count) next t)
    (transfers : Transfers l.port next.port (bytes.take count))
    (settings : next.settings = l.settings) : Sends bytes l t := by
  obtain ⟨⟨taken, start, further, all⟩, settings'⟩ := rest
  refine ⟨⟨bytes.take count ++ taken, ?_, transfers.trans further, fun ok => ?_⟩,
    settings'.trans settings⟩
  · have whole := (List.prefix_append_right_inj (bytes.take count)).2 start
    rwa [List.take_append_drop] at whole
  · rw [all ok, List.take_append_drop]

/-- The rest of a transfer after nothing was taken. -/
theorem Sends.after_nil (rest : Sends bytes next t) (transfers : Transfers l.port next.port [])
    (settings : next.settings = l.settings) : Sends bytes l t := by
  have whole : Sends (bytes.drop 0) next t := rest
  exact whole.after_part transfers settings

theorem sendRest_sends (total start : Nat) (accepted : List Nat) (rest : List UInt8)
    (l : SerialLink) : Sends rest l (sendRest total start accepted rest l) := by
  fun_induction sendRest total start accepted rest l with
  | case1 accepted l => exact ⟨⟨[], List.nil_prefix, .of_events rfl rfl, fun _ => rfl⟩, rfl⟩
  | case2 accepted rest l left port outcome =>
    exact .failed (write_transfers_of_ok outcome) rfl
  | case3 accepted rest l left taken port outcome ih =>
    exact ih.after_part (write_transfers_of_ok outcome) rfl
  | case4 accepted rest l left fault port outcome timed_out waited late =>
    exact .failed ((write_transfers_of_error outcome).trans (now_transfers port)) rfl
  | case5 accepted rest l left fault port outcome timed_out waited in_time ih =>
    exact ih.after_nil ((write_transfers_of_error outcome).trans (now_transfers port)) rfl
  | case6 accepted rest l left fault port outcome other =>
    exact .failed (write_transfers_of_error outcome) rfl

theorem send_sends (bytes : List UInt8) (l : SerialLink) : Sends bytes l (l.send bytes) := by
  have rest := sendRest_sends bytes.length l.port.now.1 [] bytes { l with port := l.port.now.2 }
  obtain ⟨⟨taken, start, transfers, all⟩, settings⟩ := rest.after_nil (now_transfers l.port) rfl
  unfold send
  dsimp only
  split
  · exact ⟨⟨taken, start, transfers, nofun⟩, settings⟩
  · next value ok =>
    have flushed := transfers.trans (flush_transfers _)
    rw [List.append_nil] at flushed
    exact ⟨⟨taken, start, flushed, fun _ => all ok⟩, settings⟩

/-! ## Receiving -/

/-- The port was only read from; the settings are as before. -/
structure Receives (l : SerialLink) (t : Transfer SerialLink (List UInt8)) : Prop where
  transfers : Transfers l.port t.link.port []
  settings : t.link.settings = l.settings

theorem receiveRest_receives (length start : Nat) (got : List UInt8) (l : SerialLink) :
    Receives l (receiveRest length start got l) := by
  fun_induction receiveRest length start got l with
  | case1 got l enough => exact ⟨.of_events rfl rfl, rfl⟩
  | case2 got l missing text port outcome => exact ⟨hear_transfers outcome, rfl⟩
  | case3 got l missing bytes port outcome gathered enough =>
    exact ⟨hear_transfers outcome, rfl⟩
  | case4 got l missing bytes port outcome gathered short waited late silent later =>
    exact ⟨((hear_transfers outcome).trans (now_transfers port)).trans (now_transfers _), rfl⟩
  | case5 got l missing bytes port outcome gathered short waited late heard =>
    exact ⟨(hear_transfers outcome).trans (now_transfers port), rfl⟩
  | case6 got l missing bytes port outcome gathered short waited in_time ih =>
    exact ⟨((hear_transfers outcome).trans (now_transfers port)).trans ih.transfers, ih.settings⟩

theorem receive_receives (length : Nat) (l : SerialLink) : Receives l (l.receive length) := by
  have rest := receiveRest_receives length l.port.now.1 [] { l with port := l.port.now.2 }
  exact ⟨(now_transfers l.port).trans rest.transfers, rest.settings⟩

/-! ## Several transfers -/

/-- The first of several transfers, and the link that it leaves to the others. -/
theorem replays_cons {l u : SerialLink} {e : Exchange} {made : List Exchange}
    (replayed : Link.Replays l (e :: made) u) :
    ∃ v bytes, bytes <+: e.ask.bytes ∧ Transfers l.port v.port bytes ∧
      (e.fault? = none → bytes = e.ask.bytes) ∧ v.settings = l.settings ∧
        Link.Replays v made u := by
  cases replayed with
  | sent sent rest =>
    obtain ⟨⟨taken, start, transfers, all⟩, settings⟩ := send_sends sent l
    refine ⟨_, taken, start, transfers, fun clean => all ?_, settings, rest⟩
    change (Exchange.sent sent (l.send sent).result).fault? = none at clean
    cases result : (l.send sent).result with
    | ok => rfl
    | error cause =>
      rw [result] at clean
      cases clean
  | received asked rest =>
    obtain ⟨transfers, settings⟩ := receive_receives asked l
    exact ⟨_, [], List.nil_prefix, transfers, fun _ => rfl, settings, rest⟩

/-- Transfers that follow some moves hand over the bytes of these moves up to the first
fault, and a prefix of those at fault. -/
theorem follows_transfers {l u : SerialLink} {moves : List Move} {made : List Exchange}
    {stop : Option (Phase × LinkError)} (follows : Follows moves made stop)
    (replayed : Link.Replays l made u) :
    ∃ bytes, bytes <+: (moves.flatMap (·.ask.bytes)) ∧ Transfers l.port u.port bytes ∧
      (stop = none → bytes = moves.flatMap (·.ask.bytes)) := by
  induction follows generalizing l with
  | done =>
    cases replayed
    exact ⟨[], List.nil_prefix, .of_events rfl rfl, fun _ => rfl⟩
  | @next move e moves made stop asks clean _ ih =>
    obtain ⟨v, bytes, -, transfers, all, -, rest⟩ := replays_cons replayed
    obtain ⟨more, start, further, whole⟩ := ih rest
    rw [all clean, asks] at transfers
    refine ⟨move.ask.bytes ++ more, ?_, transfers.trans further, fun ended => ?_⟩
    · rw [List.flatMap_cons]
      exact (List.prefix_append_right_inj _).2 start
    · rw [List.flatMap_cons, whole ended]
  | @stopped move e moves cause asks fault =>
    obtain ⟨v, bytes, start, transfers, -, -, rest⟩ := replays_cons replayed
    cases rest
    rw [asks] at start
    refine ⟨bytes, ?_, transfers, nofun⟩
    rw [List.flatMap_cons]
    exact start.trans (List.prefix_append _ _)

/-- The transfer unit of a serial link stays what it is. -/
theorem steady (l : SerialLink) : Link.Steady l.settings.transferUnit l := by
  intro t reached
  have kept : t.settings = l.settings := by
    induction reached with
    | refl => rfl
    | send bytes _ ih => exact (send_sends bytes _).settings.trans ih
    | receive asked _ ih => exact (receive_receives asked _).settings.trans ih
  exact congrArg LinkSettings.transferUnit kept

end SerialLink

end Serial

end LogicCapture
