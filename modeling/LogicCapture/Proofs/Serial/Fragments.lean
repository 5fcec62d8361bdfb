import LogicCapture.Proofs.Serial.Transfers
import Mathlib.Algebra.GroupWithZero.Nat

/-!
# Transfers in fragments

A port may take and give bytes in parts as small as it likes, and run out of its own
time in between. As long as that ends before the time for the transfer has run out, a
serial link makes up for it: the bytes of a send are all taken, and those of a receive
are the next ones of the stream that the port delivers. So the link replays whatever
transfers were made over a port that moves each of them at once.
-/

namespace LogicCapture

/-- How many bytes were asked for, if any were. -/
def Exchange.asked? : Exchange → Option Nat
  | sent _ _ => none
  | received asked _ => some asked

theorem Recorded.asked_eq {σ : Type} (r : Recorded σ) :
    r.asked = r.exchanges.reverse.filterMap Exchange.asked? :=
  congrArg (List.filterMap · _) (funext fun e => by cases e <;> rfl)

namespace Serial

/-! ## Ports that move transfers in parts -/

/-- Bytes, or only the port's own time ran out. -/
def ReadAnswer.Harmless : ReadAnswer → Prop
  | .bytes _ => True
  | .fails fault => fault.timedOut = true

/-- A part is taken, or only the port's own time ran out. -/
def WriteAnswer.Harmless : WriteAnswer → Prop
  | .takes most => 0 < most
  | .fails fault => fault.timedOut = true

instance : DecidablePred ReadAnswer.Harmless
  | .bytes _ => .isTrue trivial
  | .fails fault => inferInstanceAs (Decidable (fault.timedOut = true))

instance : DecidablePred WriteAnswer.Harmless
  | .takes most => inferInstanceAs (Decidable (0 < most))
  | .fails fault => inferInstanceAs (Decidable (fault.timedOut = true))

/-- The bytes that arrive with an answer. -/
def ReadAnswer.arrived : ReadAnswer → List UInt8
  | .bytes given => given
  | .fails _ => []

namespace Port

/-- The port moves bytes in parts, and does no more than to delay them. -/
structure Fragmenting (p : Port) : Prop where
  reads : ∀ answer ∈ p.reads, answer.Harmless
  writes : ∀ answer ∈ p.writes, answer.Harmless
  flushes : ∀ answer ∈ p.flushes, answer = none

/-- All bytes that are still to arrive. -/
def stream (p : Port) : List UInt8 := p.reads.flatMap ReadAnswer.arrived

/-- The same bytes on a port that moves every transfer at once. -/
def whole (p : Port) : Port := { p with reads := [.bytes p.stream], writes := [], flushes := [] }

variable {p q : Port} {room : Nat}

/-- As long as bytes are missing, some are still to arrive. -/
theorem stream_ne_nil {got length : Nat} (missing : ¬ length ≤ got)
    (enough : length ≤ got + p.stream.length) : p.stream ≠ [] := by
  intro none_left
  rw [none_left] at enough
  exact missing enough

theorem Fragmenting.write {offered : List UInt8} {result : Except Fault Nat}
    (fragmenting : p.Fragmenting) (outcome : p.write offered = (result, q)) :
    q.Fragmenting ∧ q.stream = p.stream ∧ q.looks = p.looks ∧ q.clock = p.clock := by
  unfold Port.write at outcome
  split at outcome
  · cases outcome
    exact ⟨⟨fragmenting.reads, fragmenting.writes, fragmenting.flushes⟩, rfl, rfl, rfl⟩
  · next eq =>
    cases outcome
    refine ⟨⟨fragmenting.reads, fun answer mem => ?_, fragmenting.flushes⟩, rfl, rfl, rfl⟩
    exact fragmenting.writes answer (eq ▸ List.mem_cons_of_mem _ mem)
  · next eq =>
    cases outcome
    refine ⟨⟨fragmenting.reads, fun answer mem => ?_, fragmenting.flushes⟩, rfl, rfl, rfl⟩
    exact fragmenting.writes answer (eq ▸ List.mem_cons_of_mem _ mem)

/-- Of something that is offered something is taken. -/
theorem Fragmenting.taken_pos {offered : List UInt8} {taken : Nat} (fragmenting : p.Fragmenting)
    (left : offered ≠ []) (outcome : p.write offered = (.ok taken, q)) : 0 < taken := by
  have some_left := List.length_pos_iff.2 left
  unfold Port.write at outcome
  split at outcome
  · cases outcome
    exact some_left
  · next most rest eq =>
    cases outcome
    have positive : 0 < most := fragmenting.writes (.takes most) (eq ▸ List.mem_cons_self)
    rw [List.length_take]
    exact Nat.lt_min.2 ⟨positive, some_left⟩
  · cases outcome

theorem Fragmenting.write_timedOut {offered : List UInt8} {fault : Fault}
    (fragmenting : p.Fragmenting) (outcome : p.write offered = (.error fault, q)) :
    fault.timedOut = true := by
  unfold Port.write at outcome
  split at outcome
  · cases outcome
  · cases outcome
  · next eq =>
    cases outcome
    exact fragmenting.writes (.fails fault) (eq ▸ List.mem_cons_self)

theorem Fragmenting.flush (fragmenting : p.Fragmenting) :
    p.flush.1 = .ok () ∧ p.flush.2.Fragmenting ∧ p.flush.2.stream = p.stream := by
  refine ⟨?_, flush_snd p ▸ ⟨fragmenting.reads, fragmenting.writes, fun answer mem => ?_⟩,
    flush_snd p ▸ rfl⟩
  · unfold Port.flush
    split
    · next fault rest eq => cases fragmenting.flushes (some fault) (eq ▸ List.mem_cons_self)
    · rfl
  · exact fragmenting.flushes answer (List.mem_of_mem_tail mem)

theorem hear_of_bytes {bytes : List UInt8} {rest : List ReadAnswer}
    (reads : p.reads = .bytes bytes :: rest) :
    p.hear room = (.ok (bytes.take room), { p with
      reads := if bytes.length ≤ room then rest else .bytes (bytes.drop room) :: rest
      }.record (.read room)) := by
  rw [hear, read, reads]

/-- What is heard is the front of the stream. -/
theorem Fragmenting.hear {result : Except String (List UInt8)} (fragmenting : p.Fragmenting)
    (more : p.stream ≠ []) (outcome : p.hear room = (result, q)) :
    ∃ bytes, result = .ok bytes ∧ bytes.length ≤ room ∧ bytes ++ q.stream = p.stream ∧
      q.Fragmenting ∧ q.looks = p.looks ∧ q.clock = p.clock := by
  have harmless := fragmenting.reads
  cases reads : p.reads with
  | nil =>
    refine absurd ?_ more
    rw [stream, reads, List.flatMap_nil]
  | cons answer rest =>
    rw [reads] at harmless
    obtain ⟨first, others⟩ := List.forall_mem_cons.1 harmless
    cases answer with
    | bytes bytes =>
      let left := if bytes.length ≤ room then rest else .bytes (bytes.drop room) :: rest
      have kept : (∀ answer ∈ left, answer.Harmless) ∧
          bytes.take room ++ left.flatMap ReadAnswer.arrived =
            bytes ++ rest.flatMap ReadAnswer.arrived := by
        by_cases fits : bytes.length ≤ room
        · have all : left = rest := if_pos fits
          rw [all, List.take_of_length_le fits]
          exact ⟨others, rfl⟩
        · have part : left = .bytes (bytes.drop room) :: rest := if_neg fits
          rw [part, List.flatMap_cons, ReadAnswer.arrived, ← List.append_assoc,
            List.take_append_drop]
          exact ⟨List.forall_mem_cons.2 ⟨trivial, others⟩, rfl⟩
      cases outcome.symm.trans (hear_of_bytes reads)
      refine ⟨bytes.take room, rfl, List.length_take_le room bytes, ?_,
        ⟨kept.1, fragmenting.writes, fragmenting.flushes⟩, rfl, rfl⟩
      rw [stream, stream, reads]
      exact kept.2
    | fails fault =>
      have heard : p.hear room = (.ok [], { p with reads := rest }.record (.read room)) := by
        rw [Port.hear, Port.read, reads]
        exact congrArg (·, _) (if_pos first)
      cases outcome.symm.trans heard
      refine ⟨[], rfl, Nat.zero_le room, ?_, ⟨others, fragmenting.writes, fragmenting.flushes⟩,
        rfl, rfl⟩
      rw [stream, stream, reads]
      rfl

end Port

/-! ## Transfers that end in time -/

namespace SerialLink

open Port

/-- Every look at the clock that takes the first link to the second one shows that less
than the allowed time has passed since the first look. -/
def InTime (l after : SerialLink) : Prop :=
  ∀ i, l.port.looks < i → i < after.port.looks →
    l.port.clock i - l.port.clock l.port.looks < l.settings.timeout

theorem sendRest_of_inTime (total start : Nat) (accepted : List Nat) (rest : List UInt8)
    (l : SerialLink) (fragmenting : l.port.Fragmenting)
    (in_time : ∀ i, l.port.looks ≤ i →
      i < (sendRest total start accepted rest l).link.port.looks →
        l.port.clock i - start < l.settings.timeout) :
    (sendRest total start accepted rest l).result = .ok () ∧
      (sendRest total start accepted rest l).link.port.Fragmenting ∧
      (sendRest total start accepted rest l).link.port.stream = l.port.stream := by
  fun_induction sendRest total start accepted rest l with
  | case1 accepted l => exact ⟨rfl, fragmenting, rfl⟩
  | case2 accepted rest l left port outcome =>
    exact absurd (fragmenting.taken_pos left outcome) (Nat.lt_irrefl 0)
  | case3 accepted rest l left taken port outcome ih =>
    obtain ⟨further, stream, looks, clock⟩ := fragmenting.write outcome
    rw [← clock, ← looks] at in_time
    obtain ⟨ok, last, same⟩ := ih further in_time
    exact ⟨ok, last, same.trans stream⟩
  | case4 accepted rest l left fault port outcome timed_out waited late =>
    obtain ⟨-, -, looks, clock⟩ := fragmenting.write outcome
    rw [← clock, ← looks] at in_time
    exact absurd late (Nat.not_le_of_lt (in_time port.looks (Nat.le_refl _) (Nat.lt_succ_self _)))
  | case5 accepted rest l left fault port outcome timed_out waited early ih =>
    obtain ⟨further, stream, looks, clock⟩ := fragmenting.write outcome
    rw [← clock, ← looks] at in_time
    obtain ⟨ok, last, same⟩ := ih ⟨further.reads, further.writes, further.flushes⟩
      fun i le => in_time i (Nat.le_of_succ_le le)
    exact ⟨ok, last, same.trans stream⟩
  | case6 accepted rest l left fault port outcome other =>
    exact absurd (fragmenting.write_timedOut outcome) other

/-- What a send begins with: the clock is looked at. -/
def started (l : SerialLink) : SerialLink := { l with port := l.port.now.2 }

theorem Fragmenting.started {l : SerialLink} (fragmenting : l.port.Fragmenting) :
    l.started.port.Fragmenting :=
  ⟨fragmenting.reads, fragmenting.writes, fragmenting.flushes⟩

theorem looks_flush (p : Port) : p.flush.2.looks = p.looks := by rw [flush_snd, record]

theorem looks_send (bytes : List UInt8) (l : SerialLink) : (l.send bytes).link.port.looks =
    (sendRest bytes.length l.port.now.1 [] bytes l.started).link.port.looks := by
  unfold send
  dsimp only
  split
  · rfl
  · exact looks_flush _

/-- A send of which all was taken ends as the flush does. -/
theorem send_of_taken {bytes : List UInt8} {l : SerialLink}
    (taken : (sendRest bytes.length l.port.now.1 [] bytes l.started).result = .ok ()) :
    (l.send bytes).result =
        (sendRest bytes.length l.port.now.1 [] bytes l.started).link.port.flush.1.mapError
          (fun fault => .io fault.text) ∧
      (l.send bytes).link.port =
        (sendRest bytes.length l.port.now.1 [] bytes l.started).link.port.flush.2 := by
  unfold send
  dsimp only
  split
  · next cause failed => cases failed.symm.trans taken
  · exact ⟨rfl, rfl⟩

theorem send_of_inTime {l : SerialLink} {bytes : List UInt8} (fragmenting : l.port.Fragmenting)
    (in_time : l.InTime (l.send bytes).link) :
    (l.send bytes).result = .ok () ∧ (l.send bytes).link.port.Fragmenting ∧
      (l.send bytes).link.port.stream = l.port.stream := by
  rw [InTime, looks_send] at in_time
  obtain ⟨taken, last, same⟩ := sendRest_of_inTime bytes.length l.port.now.1 [] bytes l.started
    (Fragmenting.started fragmenting) in_time
  obtain ⟨flushed, last', same'⟩ := last.flush
  obtain ⟨result, port⟩ := send_of_taken taken
  rw [result, port, flushed]
  exact ⟨rfl, last', same'.trans same⟩

theorem receiveRest_of_inTime (length start : Nat) (got : List UInt8) (l : SerialLink)
    (fragmenting : l.port.Fragmenting) (no_more : got.length ≤ length)
    (enough : length ≤ got.length + l.port.stream.length)
    (in_time : ∀ i, l.port.looks ≤ i →
      i < (receiveRest length start got l).link.port.looks →
        l.port.clock i - start < l.settings.timeout) :
    ∃ more, (receiveRest length start got l).result = .ok (got ++ more) ∧
      got.length + more.length = length ∧
      more ++ (receiveRest length start got l).link.port.stream = l.port.stream ∧
      (receiveRest length start got l).link.port.Fragmenting := by
  fun_induction receiveRest length start got l with
  | case1 got l all =>
    refine ⟨[], ?_, Nat.le_antisymm no_more all, rfl, fragmenting⟩
    rw [List.append_nil]
  | case2 got l missing text port outcome =>
    obtain ⟨bytes, ok, -⟩ := fragmenting.hear (stream_ne_nil missing enough) outcome
    cases ok
  | case3 got l missing bytes port outcome gathered all =>
    obtain ⟨_, ok, fits, front, further, -⟩ :=
      fragmenting.hear (stream_ne_nil missing enough) outcome
    cases ok
    refine ⟨bytes, rfl, ?_, front, further⟩
    have exactly : gathered.length = got.length + bytes.length := List.length_append
    omega
  | case4 got l missing bytes port outcome gathered short waited late silent later =>
    obtain ⟨_, -, -, -, -, looks, clock⟩ := fragmenting.hear (stream_ne_nil missing enough) outcome
    rw [← clock, ← looks] at in_time
    refine absurd late (Nat.not_le_of_lt (in_time port.looks (Nat.le_refl _) ?_))
    exact Nat.lt_succ_of_lt (Nat.lt_succ_self _)
  | case5 got l missing bytes port outcome gathered short waited late heard =>
    obtain ⟨_, -, -, -, -, looks, clock⟩ := fragmenting.hear (stream_ne_nil missing enough) outcome
    rw [← clock, ← looks] at in_time
    exact absurd late (Nat.not_le_of_lt (in_time port.looks (Nat.le_refl _) (Nat.lt_succ_self _)))
  | case6 got l missing bytes port outcome gathered short waited early ih =>
    obtain ⟨_, ok, fits, front, further, looks, clock⟩ :=
      fragmenting.hear (stream_ne_nil missing enough) outcome
    cases ok
    rw [← clock, ← looks] at in_time
    rw [← front, List.length_append, ← Nat.add_assoc, ← List.length_append] at enough
    obtain ⟨more, result, exactly, front', last⟩ :=
      ih ⟨further.reads, further.writes, further.flushes⟩ (Nat.le_of_not_le short) enough
        fun i le => in_time i (Nat.le_of_succ_le le)
    refine ⟨bytes ++ more, ?_, ?_, ?_, last⟩
    · rw [result, List.append_assoc]
    · rw [← exactly, List.length_append, List.length_append, Nat.add_assoc]
    · rw [List.append_assoc, front']
      exact front

theorem receive_of_inTime {l : SerialLink} {length : Nat} (fragmenting : l.port.Fragmenting)
    (enough : length ≤ l.port.stream.length) (in_time : l.InTime (l.receive length).link) :
    ∃ reply, (l.receive length).result = .ok reply ∧ reply.length = length ∧
      reply ++ (l.receive length).link.port.stream = l.port.stream ∧
      (l.receive length).link.port.Fragmenting := by
  have whole := receiveRest_of_inTime length l.port.now.1 [] l.started
    (Fragmenting.started fragmenting) (Nat.zero_le length)
  rw [List.length_nil, Nat.zero_add] at whole
  obtain ⟨reply, result, exactly, front, last⟩ := whole enough in_time
  rw [Nat.zero_add] at exactly
  exact ⟨reply, result, exactly, front, last⟩

end SerialLink

/-! ## Ports that move transfers at once -/

namespace Port

variable {p q : Port} {room : Nat}

/-- Writes take all that is offered, and all bytes still to arrive are there. -/
structure Whole (p : Port) : Prop where
  reads : p.reads = [] ∨ ∃ bytes, p.reads = [.bytes bytes]
  writes : p.writes = []
  flushes : p.flushes = []

theorem whole_whole (p : Port) : p.whole.Whole := ⟨.inr ⟨p.stream, rfl⟩, rfl, rfl⟩

theorem stream_whole (p : Port) : p.whole.stream = p.stream := List.append_nil _

theorem Whole.fragmenting (whole : p.Whole) : p.Fragmenting where
  reads := by
    rcases whole.reads with none_left | ⟨bytes, all⟩
    · rw [none_left]
      nofun
    · rw [all]
      exact List.forall_mem_singleton.2 trivial
  writes := by
    rw [whole.writes]
    nofun
  flushes := by
    rw [whole.flushes]
    nofun

/-- All that there is room for is heard at once. -/
theorem Whole.hear {bytes : List UInt8} (whole : p.Whole) (more : p.stream ≠ [])
    (enough : room ≤ p.stream.length) (outcome : p.hear room = (.ok bytes, q)) :
    bytes.length = room ∧ q.Whole ∧ q.looks = p.looks := by
  rcases whole.reads with none_left | ⟨stream, all⟩
  · refine absurd ?_ more
    rw [Port.stream, none_left, List.flatMap_nil]
  · have streamed : p.stream = stream := by
      rw [Port.stream, all, List.flatMap_singleton, ReadAnswer.arrived]
    rw [streamed] at enough
    cases outcome.symm.trans (hear_of_bytes all)
    refine ⟨List.length_take_of_le enough, ⟨?_, whole.writes, whole.flushes⟩, rfl⟩
    by_cases fits : stream.length ≤ room
    · exact .inl (if_pos fits)
    · exact .inr ⟨stream.drop room, if_neg fits⟩

theorem Whole.flush (whole : p.Whole) : p.flush.2.Whole := by
  rw [flush_snd]
  refine ⟨whole.reads, whole.writes, ?_⟩
  change p.flushes.tail = []
  rw [whole.flushes, List.tail_nil]

end Port

namespace SerialLink

open Port

theorem sendRest_of_no_writes (total start : Nat) (accepted : List Nat) (rest : List UInt8)
    (l : SerialLink) (writes : l.port.writes = []) :
    ∃ events, (sendRest total start accepted rest l).link.port = { l.port with events } := by
  -- without answers for writes every write takes all
  have taken {l : SerialLink} (writes : l.port.writes = []) (rest : List UInt8) :
      l.port.write rest = (.ok rest.length, l.port.record (.wrote rest)) := by
    rw [Port.write, writes]
  fun_induction sendRest total start accepted rest l with
  | case1 accepted l => exact ⟨l.port.events, rfl⟩
  | case2 accepted rest l left port outcome =>
    obtain ⟨-, rfl⟩ := Prod.mk.inj (outcome.symm.trans (taken writes rest))
    exact ⟨_, rfl⟩
  | case3 accepted rest l left count port outcome ih =>
    obtain ⟨-, rfl⟩ := Prod.mk.inj (outcome.symm.trans (taken writes rest))
    exact ih writes
  | case4 accepted rest l left fault port outcome =>
    cases outcome.symm.trans (taken writes rest)
  | case5 accepted rest l left fault port outcome =>
    cases outcome.symm.trans (taken writes rest)
  | case6 accepted rest l left fault port outcome =>
    cases outcome.symm.trans (taken writes rest)

theorem send_whole {l : SerialLink} (bytes : List UInt8) (whole : l.port.Whole) :
    (l.send bytes).link.port.Whole ∧ (l.send bytes).link.port.looks = l.port.looks + 1 := by
  obtain ⟨events, port⟩ :=
    sendRest_of_no_writes bytes.length l.port.now.1 [] bytes l.started whole.writes
  refine ⟨?_, by rw [looks_send, port]; rfl⟩
  have sent : (sendRest bytes.length l.port.now.1 [] bytes l.started).link.port.Whole := by
    rw [port]
    exact ⟨whole.reads, whole.writes, whole.flushes⟩
  unfold send
  dsimp only
  split
  · exact sent
  · exact sent.flush

theorem receiveRest_whole (length start : Nat) (got : List UInt8) (l : SerialLink)
    (whole : l.port.Whole) (enough : length ≤ got.length + l.port.stream.length) :
    (receiveRest length start got l).link.port.Whole ∧
      (receiveRest length start got l).link.port.looks = l.port.looks := by
  -- nothing is missing after one read
  have all_heard {got bytes : List UInt8} {p q : Port} (whole : p.Whole)
      (missing : ¬ length ≤ got.length) (enough : length ≤ got.length + p.stream.length)
      (outcome : p.hear (length - got.length) = (.ok bytes, q)) :
      length ≤ (got ++ bytes).length ∧ q.Whole ∧ q.looks = p.looks := by
    obtain ⟨exactly, whole', looks⟩ :=
      whole.hear (stream_ne_nil missing enough) (by omega) outcome
    rw [List.length_append, exactly]
    exact ⟨by omega, whole', looks⟩
  fun_induction receiveRest length start got l with
  | case1 got l all => exact ⟨whole, rfl⟩
  | case2 got l missing text port outcome =>
    obtain ⟨bytes, ok, -⟩ := whole.fragmenting.hear (stream_ne_nil missing enough) outcome
    cases ok
  | case3 got l missing bytes port outcome gathered all =>
    exact (all_heard whole missing enough outcome).2
  | case4 got l missing bytes port outcome gathered short =>
    exact absurd (all_heard whole missing enough outcome).1 short
  | case5 got l missing bytes port outcome gathered short =>
    exact absurd (all_heard whole missing enough outcome).1 short
  | case6 got l missing bytes port outcome gathered short =>
    exact absurd (all_heard whole missing enough outcome).1 short

theorem receive_whole {l : SerialLink} {length : Nat} (whole : l.port.Whole)
    (enough : length ≤ l.port.stream.length) :
    (l.receive length).link.port.Whole ∧
      (l.receive length).link.port.looks = l.port.looks + 1 := by
  have started : l.started.port.Whole := ⟨whole.reads, whole.writes, whole.flushes⟩
  refine receiveRest_whole length l.port.now.1 [] l.started started ?_
  rwa [List.length_nil, Nat.zero_add]

/-- A transfer that looks at the clock only when it begins is in time. -/
theorem inTime_of_looks {l after : SerialLink} (looks : after.port.looks = l.port.looks + 1) :
    l.InTime after := by
  intro i later before
  rw [looks] at before
  exact absurd later (Nat.not_lt_of_le (Nat.le_of_lt_succ before))

end SerialLink

/-! ## Links side by side -/

namespace SerialLink

open Port

/-- The first link moves in parts what the second one moves at once. -/
structure Beside (l w : SerialLink) : Prop where
  fragmenting : l.port.Fragmenting
  whole : w.port.Whole
  stream : l.port.stream = w.port.stream
  written : l.port.written = w.port.written
  settings : l.settings = w.settings

variable {l w : SerialLink}

/-- A send that went well handed over its bytes. -/
theorem written_send {bytes : List UInt8} (ok : (l.send bytes).result = .ok ()) :
    (l.send bytes).link.port.written = l.port.written ++ bytes := by
  obtain ⟨⟨taken, -, transfers, all⟩, -⟩ := send_sends bytes l
  rw [transfers.written, all ok]

theorem written_receive (length : Nat) (l : SerialLink) :
    (l.receive length).link.port.written = l.port.written := by
  rw [(receive_receives length l).transfers.written, List.append_nil]

theorem Beside.send {bytes : List UInt8} (beside : Beside l w)
    (in_time : l.InTime (l.send bytes).link) :
    (l.send bytes).result = (w.send bytes).result ∧
      Beside (l.send bytes).link (w.send bytes).link := by
  obtain ⟨whole, looks⟩ := send_whole bytes beside.whole
  obtain ⟨ok, fragmenting, stream⟩ := send_of_inTime beside.fragmenting in_time
  obtain ⟨ok', -, stream'⟩ := send_of_inTime beside.whole.fragmenting (inTime_of_looks looks)
  refine ⟨ok.trans ok'.symm, fragmenting, whole, ?_, ?_, ?_⟩
  · rw [stream, stream', beside.stream]
  · rw [written_send ok, written_send ok', beside.written]
  · rw [(send_sends bytes l).settings, (send_sends bytes w).settings, beside.settings]

theorem Beside.receive {length : Nat} (beside : Beside l w)
    (enough : length ≤ l.port.stream.length) (in_time : l.InTime (l.receive length).link) :
    (l.receive length).result = (w.receive length).result ∧
      Beside (l.receive length).link (w.receive length).link ∧
      length + (l.receive length).link.port.stream.length = l.port.stream.length := by
  have enough' : length ≤ w.port.stream.length := beside.stream ▸ enough
  obtain ⟨whole, looks⟩ := receive_whole beside.whole enough'
  obtain ⟨reply, given, long, front, fragmenting⟩ :=
    receive_of_inTime beside.fragmenting enough in_time
  obtain ⟨reply', given', long', front', -⟩ :=
    receive_of_inTime beside.whole.fragmenting enough' (inTime_of_looks looks)
  -- both are the first bytes of the one stream
  have fronts := front.trans (beside.stream.trans front'.symm)
  obtain ⟨same, rest⟩ := List.append_inj fronts (long.trans long'.symm)
  refine ⟨?_, ⟨fragmenting, whole, rest, ?_, ?_⟩, ?_⟩
  · rw [given, given', same]
  · rw [written_receive, written_receive, beside.written]
  · rw [(receive_receives length l).settings, (receive_receives length w).settings,
      beside.settings]
  · rw [← front, List.length_append, long]

/-! ## Transfers in a row -/

/-- The link after a transfer. -/
def after (l : SerialLink) : Ask → SerialLink
  | .send bytes => (l.send bytes).link
  | .receive length => (l.receive length).link

/-- The link makes these transfers, each of them in time. -/
def Prompt : SerialLink → List Exchange → Prop
  | _, [] => True
  | l, e :: rest => l.InTime (l.after e.ask) ∧ (l.after e.ask).Prompt rest

theorem after_kept (l : SerialLink) (ask : Ask) :
    (l.after ask).port.clock = l.port.clock ∧ (l.after ask).settings = l.settings := by
  cases ask with
  | send bytes =>
    obtain ⟨⟨taken, -, transfers, -⟩, settings⟩ := send_sends bytes l
    exact ⟨transfers.clock, settings⟩
  | receive length =>
    obtain ⟨transfers, settings⟩ := receive_receives length l
    exact ⟨transfers.clock, settings⟩

/-- While the clock never shows the allowed time to have passed all transfers are in
time. -/
theorem prompt_of_clock (quick : ∀ i j, l.port.clock i - l.port.clock j < l.settings.timeout)
    (made : List Exchange) : l.Prompt made := by
  induction made generalizing l with
  | nil => trivial
  | cons e made ih =>
    refine ⟨fun i _ _ => quick i _, ih ?_⟩
    obtain ⟨clock, settings⟩ := l.after_kept e.ask
    rw [clock, settings]
    exact quick

/-- A link that moves in parts replays what the other one moves at once. -/
theorem Beside.replays {v : SerialLink} {made : List Exchange} (beside : Beside l w)
    (replayed : Link.Replays w made v)
    (enough : (made.filterMap Exchange.asked?).sum ≤ l.port.stream.length)
    (prompt : l.Prompt made) : ∃ u, Link.Replays l made u ∧ Beside u v := by
  induction replayed generalizing l with
  | nil => exact ⟨l, .nil, beside⟩
  | @sent w v made bytes _ ih =>
    obtain ⟨same, beside'⟩ := beside.send prompt.1
    have unread : (l.send bytes).link.port.stream = l.port.stream :=
      (send_of_inTime beside.fragmenting prompt.1).2.2
    obtain ⟨u, rest, last⟩ := ih beside' (unread ▸ enough) prompt.2
    refine ⟨u, ?_, last⟩
    have whole : Link.Replays l (.sent bytes (l.send bytes).result :: made) u := .sent bytes rest
    rwa [same] at whole
  | @received w v made asked _ ih =>
    have sum : asked + (made.filterMap Exchange.asked?).sum ≤ l.port.stream.length := enough
    obtain ⟨same, beside', used⟩ := beside.receive (Nat.le_of_add_right_le sum) prompt.1
    obtain ⟨u, rest, last⟩ := ih beside' (Nat.le_of_add_le_add_left (used ▸ sum)) prompt.2
    refine ⟨u, ?_, last⟩
    have whole : Link.Replays l (.received asked (l.receive asked).result :: made) u :=
      .received asked rest
    rwa [same] at whole

end SerialLink

end Serial

end LogicCapture
