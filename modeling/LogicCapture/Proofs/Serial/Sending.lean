import LogicCapture.Proofs.Serial.Fragments

/-!
# What a send offers to the port

A send over a serial link is a row of attempts to write, one behind the other. `Port.Tries`
says that a port was offered the bytes of such a row and answered so; the row of a send
offers each time what the port has not taken yet (`Port.GoesOn`), until nothing is left
or an attempt ends it. `SerialLink.send_accounted` puts together what this means for the
bytes and for the result of every send over every port.
-/

namespace LogicCapture.Serial

/-! ## Rows with a last entry -/

section Rows

variable {α : Type} {row : List α} {last : α}

/-- What is true of none of the entries before is true of some entry if it is true of the
last one. -/
theorem exists_mem_concat_iff (IsSo : α → Prop) (not_before : ∀ x ∈ row, ¬ IsSo x) :
    (∃ x ∈ row ++ [last], IsSo x) ↔ IsSo last := by
  constructor
  · rintro ⟨x, mem, is_so⟩
    rcases List.mem_append.1 mem with before | at_end
    · exact absurd is_so (not_before x before)
    · exact List.mem_singleton.1 at_end ▸ is_so
  · exact fun is_so => ⟨last, List.mem_append_right row List.mem_cons_self, is_so⟩

theorem getElem?_concat_eq_some {x : α} {i : Nat} (at_i : (row ++ [last])[i]? = some x) :
    row[i]? = some x ∧ i < row.length ∨ i = row.length ∧ x = last := by
  rcases Nat.lt_or_ge i row.length with lt | ge
  · rw [List.getElem?_append_left lt] at at_i
    exact .inl ⟨at_i, lt⟩
  · rw [List.getElem?_append_right ge, List.getElem?_singleton] at at_i
    split at at_i
    · next zero => exact .inr ⟨by omega, (Option.some.inj at_i).symm⟩
    · cases at_i

end Rows

/-! ## Attempts -/

/-- What came of an attempt to write. -/
inductive Outcome where
  | took (count : Nat)
  /-- Only the port's own time ran out, and then the clock showed `time`. -/
  | waited (time : Nat)
  | failed (fault : Fault)

/-- Bytes offered to a port in one write, and what came of it. -/
structure Attempt where
  offered : List UInt8
  outcome : Outcome

namespace Outcome

/-- How many bytes the port took. -/
def count : Outcome → Nat
  | took count => count
  | waited _ | failed _ => 0

/-- A port that takes nothing is given up, and one that still lets wait once the time for
the transfer is over. -/
def GivesUp (timeout start : Nat) : Outcome → Prop
  | took count => count = 0
  | waited time => timeout ≤ time - start
  | failed _ => False

/-- The transfer is over after this attempt, and not all bytes are taken. -/
def Ends (timeout start : Nat) (o : Outcome) : Prop :=
  o.GivesUp timeout start ∨ ∃ fault, o = failed fault

/-- The error with which an attempt ends a transfer of so many bytes. -/
def error (total sent : Nat) : Outcome → LinkError
  | failed fault => .io fault.text
  | took _ | waited _ => .shortWrite total sent

theorem Ends.count_eq_zero {timeout start : Nat} {o : Outcome} (ends : o.Ends timeout start) :
    o.count = 0 := by
  rcases ends with gives_up | ⟨fault, rfl⟩
  · cases o with
    | took count => exact gives_up
    | waited | failed => rfl
  · rfl

theorem Ends.error_eq_shortWrite_iff {timeout start total sent expected actual : Nat} {o : Outcome}
    (ends : o.Ends timeout start) : o.error total sent = .shortWrite expected actual ↔
      expected = total ∧ actual = sent ∧ o.GivesUp timeout start := by
  rcases ends with gives_up | ⟨fault, rfl⟩
  · have short : o.error total sent = .shortWrite total sent := by
      cases o with
      | took | waited => rfl
      | failed fault => exact gives_up.elim
    rw [short]
    constructor
    · rintro ⟨rfl, rfl⟩
      exact ⟨rfl, rfl, gives_up⟩
    · rintro ⟨rfl, rfl, -⟩
      rfl
  · exact iff_of_false nofun fun ⟨_, _, gives_up⟩ => gives_up

theorem error_eq_io_iff {o : Outcome} {total sent : Nat} {text : String} :
    o.error total sent = .io text ↔ ∃ fault, o = failed fault ∧ fault.text = text := by
  cases o with
  | took | waited => exact iff_of_false nofun fun ⟨_, eq, _⟩ => nomatch eq
  | failed fault =>
    constructor
    · rintro ⟨rfl⟩
      exact ⟨fault, rfl, rfl⟩
    · rintro ⟨_, ⟨rfl⟩, rfl⟩
      rfl

theorem error_cases (o : Outcome) (total sent : Nat) :
    (∃ expected actual, o.error total sent = .shortWrite expected actual) ∨
      ∃ text, o.error total sent = .io text := by
  cases o with
  | took | waited => exact .inl ⟨total, sent, rfl⟩
  | failed fault => exact .inr ⟨fault.text, rfl⟩

end Outcome

/-- How many bytes the port took in a row of attempts. -/
def counted (attempts : List Attempt) : Nat := (attempts.map (·.outcome.count)).sum

theorem counted_concat (attempts : List Attempt) (a : Attempt) :
    counted (attempts ++ [a]) = counted attempts + a.outcome.count := by
  rw [counted, List.map_append, List.sum_append, List.map_singleton, List.sum_singleton, counted]

theorem counted_cons (a : Attempt) (attempts : List Attempt) :
    counted (a :: attempts) = a.outcome.count + counted attempts := by
  rw [counted, List.map_cons, List.sum_cons, counted]

namespace Port

/-- The port was offered bytes in one write, and was left like this. The clock is looked
at only after an attempt that timed out. -/
inductive Offers : Port → Attempt → Port → Prop
  | took {p q : Port} {offered : List UInt8} {count : Nat} :
    p.write offered = (.ok count, q) → Offers p ⟨offered, .took count⟩ q
  | waited {p q : Port} {offered : List UInt8} {fault : Fault} :
    p.write offered = (.error fault, q) → fault.timedOut = true →
    Offers p ⟨offered, .waited q.now.1⟩ q.now.2
  | failed {p q : Port} {offered : List UInt8} {fault : Fault} :
    p.write offered = (.error fault, q) → fault.timedOut = false →
    Offers p ⟨offered, .failed fault⟩ q

/-- These attempts were made on the port, one after the other and no others. -/
inductive Tries : Port → List Attempt → Port → Prop
  | done (p : Port) : Tries p [] p
  | next {p q r : Port} {a : Attempt} {rest : List Attempt} :
    Offers p a q → Tries q rest r → Tries p (a :: rest) r

/-- Attempts that do not end the transfer, each of them with all bytes that are left; the
second list is what is left after them. -/
inductive GoesOn (timeout start : Nat) :
    List UInt8 → Port → List Attempt → List UInt8 → Port → Prop
  | done (rest : List UInt8) (p : Port) : GoesOn timeout start rest p [] rest p
  | next {rest left : List UInt8} {p q r : Port} {outcome : Outcome} {attempts : List Attempt} :
    rest ≠ [] → Offers p ⟨rest, outcome⟩ q → ¬ outcome.Ends timeout start →
    GoesOn timeout start (rest.drop outcome.count) q attempts left r →
    GoesOn timeout start rest p (⟨rest, outcome⟩ :: attempts) left r

variable {timeout start : Nat} {p q r : Port} {a : Attempt} {attempts : List Attempt}
  {rest left : List UInt8}

theorem Offers.count_le (offers : Offers p a q) : a.outcome.count ≤ a.offered.length := by
  cases offers with
  | took outcome => exact (writes_of_taken outcome).1
  | waited _ _ | failed _ _ => exact Nat.zero_le _

theorem Offers.transfers (offers : Offers p a q) :
    Transfers p q (a.offered.take a.outcome.count) := by
  cases offers with
  | took outcome => exact write_transfers_of_ok outcome
  | waited outcome _ => exact (write_transfers_of_error outcome).trans (now_transfers _)
  | failed outcome _ => exact write_transfers_of_error outcome

theorem Tries.concat (tries : Tries p attempts q) (offers : Offers q a r) :
    Tries p (attempts ++ [a]) r := by
  induction tries with
  | done p => exact .next offers (.done r)
  | next first _ ih => exact .next first (ih offers)

theorem GoesOn.tries (goes : GoesOn timeout start rest p attempts left q) :
    Tries p attempts q := by
  induction goes with
  | done rest p => exact .done p
  | next _ offers _ _ ih => exact .next offers ih

theorem GoesOn.counted_le (goes : GoesOn timeout start rest p attempts left q) :
    counted attempts ≤ rest.length := by
  induction goes with
  | done rest p => exact Nat.zero_le _
  | next _ offers _ _ ih =>
    have le := offers.count_le
    rw [List.length_drop] at ih
    rw [counted_cons]
    dsimp only at le ⊢
    omega

theorem GoesOn.left_eq (goes : GoesOn timeout start rest p attempts left q) :
    left = rest.drop (counted attempts) := by
  induction goes with
  | done rest p => rfl
  | next _ _ _ _ ih => rw [ih, List.drop_drop, counted_cons]

theorem GoesOn.transfers (goes : GoesOn timeout start rest p attempts left q) :
    Transfers p q (rest.take (counted attempts)) := by
  induction goes with
  | done rest p => exact .of_events rfl rfl
  | next _ offers _ _ ih =>
    rw [counted_cons, List.take_add]
    exact offers.transfers.trans ih

/-- Attempt number `i` is made with everything that the attempts before it left. -/
theorem GoesOn.offered (goes : GoesOn timeout start rest p attempts left q) {i : Nat}
    (at_i : attempts[i]? = some a) : a.offered = rest.drop (counted (attempts.take i)) := by
  induction goes generalizing i with
  | done rest p => cases at_i
  | next _ _ _ _ ih =>
    cases i with
    | zero =>
      cases at_i
      rfl
    | succ i => rw [ih at_i, List.drop_drop, List.take_succ_cons, counted_cons]

theorem GoesOn.offered_ne_nil (goes : GoesOn timeout start rest p attempts left q)
    (mem : a ∈ attempts) : a.offered ≠ [] := by
  induction goes with
  | done rest p => cases mem
  | next some_left _ _ _ ih =>
    rcases List.mem_cons.1 mem with rfl | mem
    · exact some_left
    · exact ih mem

theorem GoesOn.not_ends (goes : GoesOn timeout start rest p attempts left q) (mem : a ∈ attempts) :
    ¬ a.outcome.Ends timeout start := by
  induction goes with
  | done rest p => cases mem
  | next _ _ going _ ih =>
    rcases List.mem_cons.1 mem with rfl | mem
    · exact going
    · exact ih mem

/-- What ends a transfer is found in none of the attempts before its end. -/
theorem GoesOn.exists_concat_iff (goes : GoesOn timeout start rest p attempts left q)
    (IsEnd : Outcome → Prop) (ends : ∀ o, IsEnd o → o.Ends timeout start) :
    (∃ b ∈ attempts ++ [a], IsEnd b.outcome) ↔ IsEnd a.outcome := by
  exact exists_mem_concat_iff _ fun b before is_end => goes.not_ends before (ends _ is_end)

end Port

namespace SerialLink

open Port

/-! ## The attempts of a send -/

/-- The attempts of a transfer go on until nothing is left or one of them ends it. -/
theorem sendRest_goesOn (total start : Nat) (accepted : List Nat) (rest : List UInt8)
    (l : SerialLink) :
    ∃ attempts left q, GoesOn l.settings.timeout start rest l.port attempts left q ∧
      (left = [] ∧ (sendRest total start accepted rest l).result = .ok () ∧
          (sendRest total start accepted rest l).link = { l with port := q } ∨
        left ≠ [] ∧ ∃ outcome r, Offers q ⟨left, outcome⟩ r ∧
          outcome.Ends l.settings.timeout start ∧
          (sendRest total start accepted rest l).result =
            .error (outcome.error total (total - left.length)) ∧
          (sendRest total start accepted rest l).link = { l with port := r }) := by
  fun_induction sendRest total start accepted rest l with
  | case1 accepted l => exact ⟨[], [], l.port, .done _ _, .inl ⟨rfl, rfl, rfl⟩⟩
  | case2 accepted rest l some_left port outcome =>
    exact ⟨[], rest, l.port, .done _ _, .inr ⟨some_left, _, port, .took outcome, .inl rfl, rfl, rfl⟩⟩
  | case3 accepted rest l some_left taken port outcome ih =>
    obtain ⟨attempts, left, q, goes, ended⟩ := ih
    have going : ¬ (Outcome.took (taken + 1)).Ends l.settings.timeout start := by
      rintro (none | ⟨fault, eq⟩)
      · cases none
      · cases eq
    exact ⟨_, left, q, .next some_left (.took outcome) going goes, ended⟩
  | case4 accepted rest l some_left fault port outcome timed_out waited late =>
    exact ⟨[], rest, l.port, .done _ _,
      .inr ⟨some_left, _, port.now.2, .waited outcome timed_out, .inl late, rfl, rfl⟩⟩
  | case5 accepted rest l some_left fault port outcome timed_out waited in_time ih =>
    obtain ⟨attempts, left, q, goes, ended⟩ := ih
    have going : ¬ (Outcome.waited port.now.1).Ends l.settings.timeout start := by
      rintro (late | ⟨fault, eq⟩)
      · exact in_time late
      · cases eq
    exact ⟨_, left, q, .next some_left (.waited outcome timed_out) going goes, ended⟩
  | case6 accepted rest l some_left fault port outcome other =>
    have failed : fault.timedOut = false := Bool.of_not_eq_true other
    exact ⟨[], rest, l.port, .done _ _,
      .inr ⟨some_left, _, port, .failed outcome failed, .inr ⟨fault, rfl⟩, rfl, rfl⟩⟩

/-- A transfer that ended early is not followed by a flush. -/
theorem send_of_stopped {bytes : List UInt8} {l : SerialLink} {cause : LinkError}
    (stopped : (sendRest bytes.length l.port.now.1 [] bytes l.started).result = .error cause) :
    (l.send bytes).result = .error cause ∧
      (l.send bytes).link.port =
        (sendRest bytes.length l.port.now.1 [] bytes l.started).link.port := by
  unfold send
  dsimp only
  split
  · next other failed => exact ⟨failed.symm.trans stopped, rfl⟩
  · next value sent => cases sent.symm.trans stopped

/-- How a send accounts for its bytes. The port is the one after the last attempt. -/
structure Accounted (bytes : List UInt8) (l : SerialLink) (t : Transfer SerialLink Unit)
    (attempts : List Attempt) (port : Port) : Prop where
  /-- The attempts are what was done with the port once the clock had been looked at. -/
  made : Tries l.port.now.2 attempts port
  /-- Each is made with exactly the bytes that the attempts before it left, and there are some. -/
  offered : ∀ i a, attempts[i]? = some a →
    a.offered = bytes.drop (counted (attempts.take i)) ∧ a.offered ≠ []
  within : counted attempts ≤ bytes.length
  /-- The port took the first of the bytes, in order and each of them once. -/
  written : t.link.port.written = l.port.written ++ bytes.take (counted attempts)
  ok : t.result = .ok () ↔ counted attempts = bytes.length ∧ port.flush.1 = .ok ()
  short : ∀ expected actual, t.result = .error (.shortWrite expected actual) ↔
    expected = bytes.length ∧ actual = counted attempts ∧
      ∃ a ∈ attempts, a.outcome.GivesUp l.settings.timeout l.port.now.1
  failed : ∀ text, t.result = .error (.io text) ↔
    (∃ a ∈ attempts, ∃ fault, a.outcome = .failed fault ∧ fault.text = text) ∨
      counted attempts = bytes.length ∧ ∃ fault, port.flush.1 = .error fault ∧ fault.text = text
  no_other : ∀ cause, t.result = .error cause →
    (∃ expected actual, cause = .shortWrite expected actual) ∨ ∃ text, cause = .io text
  /-- An attempt that ends the transfer is the last one, some bytes are left then, and nothing
  more is done with the port. -/
  ends : ∀ i a, attempts[i]? = some a → a.outcome.Ends l.settings.timeout l.port.now.1 →
    i + 1 = attempts.length ∧ counted attempts < bytes.length ∧ t.link.port = port
  flushed : counted attempts = bytes.length → t.link.port = port.flush.2

variable {bytes left : List UInt8} {l : SerialLink} {attempts : List Attempt} {q r : Port}
  {t : Transfer SerialLink Unit}

/-- A transfer whose attempts left nothing. -/
theorem accounted_of_all
    (goes : GoesOn l.settings.timeout l.port.now.1 bytes l.port.now.2 attempts [] q)
    (result : t.result = q.flush.1.mapError fun fault => .io fault.text)
    (port : t.link.port = q.flush.2) : Accounted bytes l t attempts q := by
  have all : counted attempts = bytes.length :=
    Nat.le_antisymm goes.counted_le (List.drop_eq_nil_iff.1 goes.left_eq.symm)
  have transfers := ((now_transfers l.port).trans goes.transfers).trans (flush_transfers q)
  rw [List.nil_append, List.append_nil] at transfers
  refine ⟨goes.tries, fun i a at_i => ?_, goes.counted_le, port ▸ transfers.written, ?_,
    fun expected actual => ?_, fun text => ?_, fun cause failed => ?_, fun i a at_i ends => ?_,
    fun _ => port⟩
  · exact ⟨goes.offered at_i, goes.offered_ne_nil (List.mem_of_getElem? at_i)⟩
  · rw [result]
    cases q.flush.1 with
    | ok value => exact iff_of_true rfl ⟨all, rfl⟩
    | error fault => exact iff_of_false nofun fun ⟨_, ok⟩ => nomatch ok
  · rw [result]
    refine iff_of_false ?_ fun ⟨_, _, a, mem, gives_up⟩ => goes.not_ends mem (.inl gives_up)
    cases q.flush.1 with
    | ok value => exact nofun
    | error fault => exact nofun
  · have none_failed : ¬ ∃ a ∈ attempts, ∃ fault, a.outcome = .failed fault ∧ fault.text = text :=
      fun ⟨a, mem, fault, eq, _⟩ => goes.not_ends mem (.inr ⟨fault, eq⟩)
    rw [or_iff_right none_failed, and_iff_right all, result]
    cases q.flush.1 with
    | ok value => exact iff_of_false nofun fun ⟨_, eq, _⟩ => nomatch eq
    | error fault =>
      constructor
      · rintro ⟨rfl⟩
        exact ⟨fault, rfl, rfl⟩
      · rintro ⟨_, ⟨rfl⟩, rfl⟩
        rfl
  · rw [result] at failed
    cases flushed : q.flush.1 with
    | ok value =>
      rw [flushed] at failed
      cases failed
    | error fault =>
      rw [flushed] at failed
      cases failed
      exact .inr ⟨_, rfl⟩
  · exact absurd ends (goes.not_ends (List.mem_of_getElem? at_i))

/-- A transfer that is ended by an attempt. -/
theorem accounted_of_ended {outcome : Outcome}
    (goes : GoesOn l.settings.timeout l.port.now.1 bytes l.port.now.2 attempts left q)
    (some_left : left ≠ []) (offers : Offers q ⟨left, outcome⟩ r)
    (ends : outcome.Ends l.settings.timeout l.port.now.1)
    (result : t.result = .error (outcome.error bytes.length (counted attempts)))
    (port : t.link.port = r) : Accounted bytes l t (attempts ++ [⟨left, outcome⟩]) r := by
  have counts : counted (attempts ++ [⟨left, outcome⟩]) = counted attempts := by
    rw [counted_concat, ends.count_eq_zero, Nat.add_zero]
  have fewer : counted attempts < bytes.length := by
    rw [goes.left_eq, Ne, List.drop_eq_nil_iff] at some_left
    exact Nat.lt_of_not_le some_left
  have not_all : ¬ counted attempts = bytes.length := Nat.ne_of_lt fewer
  have nothing : left.take outcome.count = [] := by rw [ends.count_eq_zero, List.take_zero]
  have transfers := ((now_transfers l.port).trans goes.transfers).trans offers.transfers
  rw [nothing, List.nil_append, List.append_nil] at transfers
  refine ⟨goes.tries.concat offers, fun i a at_i => ?_, counts ▸ goes.counted_le, ?_, ?_,
    fun expected actual => ?_, fun text => ?_, fun cause failed => ?_, fun i a at_i a_ends => ?_,
    fun all => absurd (counts ▸ all) not_all⟩
  · rcases getElem?_concat_eq_some at_i with ⟨before, lt⟩ | ⟨rfl, rfl⟩
    · rw [List.take_append_of_le_length (Nat.le_of_lt lt)]
      exact ⟨goes.offered before, goes.offered_ne_nil (List.mem_of_getElem? before)⟩
    · rw [List.take_left]
      exact ⟨goes.left_eq, some_left⟩
  · rw [port, counts]
    exact transfers.written
  · rw [result, counts]
    exact iff_of_false nofun fun ⟨all, _⟩ => not_all all
  · rw [result, counts, Except.error.injEq, goes.exists_concat_iff _ fun _ gives_up => .inl gives_up]
    exact ends.error_eq_shortWrite_iff
  · have no_flush {P : Prop} : ¬ (counted attempts = bytes.length ∧ P) := fun ⟨all, _⟩ => not_all all
    rw [result, counts, Except.error.injEq, or_iff_left no_flush, Outcome.error_eq_io_iff]
    exact (goes.exists_concat_iff (a := ⟨left, outcome⟩)
      (fun o => ∃ fault, o = .failed fault ∧ fault.text = text)
      fun _ ⟨fault, eq, _⟩ => .inr ⟨fault, eq⟩).symm
  · rw [result] at failed
    cases failed
    exact outcome.error_cases _ _
  · rcases getElem?_concat_eq_some at_i with ⟨before, -⟩ | ⟨rfl, rfl⟩
    · exact absurd a_ends (goes.not_ends (List.mem_of_getElem? before))
    · rw [counts, List.length_append, List.length_singleton]
      exact ⟨rfl, fewer, port⟩

/-- Every send accounts for its bytes: there is a row of attempts, each made with exactly
the bytes that the port has not taken yet, and told by them is which bytes the port took,
and what the result is. All is well if the port took all bytes and the flush behind them
went well. Bytes are missing if an attempt is given up; the error then tells how many
were to be sent and how many the port really took, which are fewer. Any other failure of
a write or of the flush is the error itself. -/
theorem send_accounted (bytes : List UInt8) (l : SerialLink) :
    ∃ attempts port, Accounted bytes l (l.send bytes) attempts port := by
  obtain ⟨attempts, left, q, goes, ended⟩ :=
    sendRest_goesOn bytes.length l.port.now.1 [] bytes l.started
  rcases ended with ⟨rfl, sent, link⟩ | ⟨some_left, outcome, r, offers, ends, stopped, link⟩
  · obtain ⟨result, port⟩ := send_of_taken sent
    rw [link] at result port
    exact ⟨attempts, q, accounted_of_all goes result port⟩
  · obtain ⟨result, port⟩ := send_of_stopped stopped
    have taken : bytes.length - left.length = counted attempts := by
      rw [goes.left_eq, List.length_drop]
      exact Nat.sub_sub_self goes.counted_le
    rw [taken] at result
    rw [link] at port
    exact ⟨_, r, accounted_of_ended goes some_left offers ends result port⟩

end SerialLink

end LogicCapture.Serial
