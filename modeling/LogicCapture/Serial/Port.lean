import LogicCapture.Text.Digits

/-!
Serial ports as the host sees them. What a port will do is laid down in lists
of answers, used up one by one: how many bytes each write takes, what each read
gives, where either fails. Reads and writes may move a part of what was asked.
The port also carries the host's clock, which is looked at while a transfer
goes on, and a record of what was done with it.
-/

namespace LogicCapture.Serial

/-! ## Answers of a port -/

/-- A failure to read or write. -/
structure Fault where
  /-- Only the port's own time ran out. -/
  timedOut : Bool
  text : String
deriving DecidableEq

inductive ReadAnswer where
  /-- Bytes that have arrived; a read takes as many as it has room for. -/
  | bytes (bytes : List UInt8)
  | fails (fault : Fault)

inductive WriteAnswer where
  /-- Takes so many bytes at most. -/
  | takes (most : Nat)
  | fails (fault : Fault)

/-- Something that was done with a port. -/
inductive Event where
  | listed
  | opened (path : String) (baud timeoutNanos : Nat)
  | cleared
  | wrote (bytes : List UInt8)
  | writeFailed
  | flushed
  | read (room : Nat)

/-! ## Ports -/

structure Port where
  name : Option String
  reads : List ReadAnswer := []
  /-- Once they are used up, every write takes all. -/
  writes : List WriteAnswer := []
  /-- Failures of flushing what was written. -/
  flushes : List (Option Fault) := []
  /-- Failures, as text, of emptying the buffers. -/
  clears : List (Option String) := []
  /-- What the clock shows at look number `i`, in nanoseconds. -/
  clock : Nat → Nat := fun _ => 0
  looks : Nat := 0
  /-- What was done with the port, newest first. -/
  events : List Event := []

namespace Port

def record (e : Event) (p : Port) : Port := { p with events := e :: p.events }

/-- Looks at the clock. -/
def now (p : Port) : Nat × Port := (p.clock p.looks, { p with looks := p.looks + 1 })

/-- Offers bytes and tells how many of them were taken. -/
def write (offered : List UInt8) (p : Port) : Except Fault Nat × Port :=
  match p.writes with
  | [] => (.ok offered.length, p.record (.wrote offered))
  | .takes most :: rest =>
    let taken := offered.take most
    (.ok taken.length, { p with writes := rest }.record (.wrote taken))
  | .fails fault :: rest => (.error fault, { p with writes := rest }.record .writeFailed)

/-- Asks for up to `room` bytes. -/
def read (room : Nat) (p : Port) : Except Fault (List UInt8) × Port :=
  match p.reads with
  | [] => (.error ⟨false, "script ended"⟩, p.record (.read room))
  | .bytes bytes :: rest =>
    let left := if bytes.length ≤ room then rest else .bytes (bytes.drop room) :: rest
    (.ok (bytes.take room), { p with reads := left }.record (.read room))
  | .fails fault :: rest => (.error fault, { p with reads := rest }.record (.read room))

/-- Asks for up to `room` bytes; when only the port's own time ran out, nothing
was heard. -/
def hear (room : Nat) (p : Port) : Except String (List UInt8) × Port :=
  match p.read room with
  | (.ok bytes, after) => (.ok bytes, after)
  | (.error fault, after) => (if fault.timedOut then .ok [] else .error fault.text, after)

/-- Waits until everything written has left the host. -/
def flush (p : Port) : Except Fault Unit × Port :=
  let after := { p with flushes := p.flushes.tail }.record .flushed
  match p.flushes with
  | some fault :: _ => (.error fault, after)
  | _ => (.ok (), after)

/-- Empties the buffers of both directions. -/
def clear (p : Port) : Except String Unit × Port :=
  let after := { p with clears := p.clears.tail }.record .cleared
  match p.clears with
  | some text :: _ => (.error text, after)
  | _ => (.ok (), after)

/-! ## How long the answers last -/

def ReadAnswer.weight : ReadAnswer → Nat
  | .bytes bytes => bytes.length + 1
  | .fails _ => 1

/-- Every read with room for a byte uses up some of this. -/
def pending (p : Port) : Nat := p.reads.foldr (fun answer rest => ReadAnswer.weight answer + rest) 0

/-- More polls than this one cannot be answered. -/
def patience (p : Port) : Nat := p.pending + 1

/-- A read that does not fail for good uses up some of the answers. -/
theorem pending_of_heard {p : Port} {room : Nat} (space : 0 < room) {bytes : List UInt8}
    {after : Port} (heard : p.hear room = (.ok bytes, after)) : after.pending < p.pending := by
  unfold hear read at heard
  split at heard
  · next outcome =>
    split at outcome
    · cases outcome
    · next arrived rest eq =>
      cases outcome
      cases heard
      simp only [pending, record, eq, List.foldr_cons, ReadAnswer.weight]
      split
      · omega
      · simp only [List.foldr_cons, List.length_drop]
        omega
    · cases outcome
  · next outcome =>
    split at outcome
    · cases outcome
      cases heard
    · cases outcome
    · next eq =>
      cases outcome
      obtain ⟨-, rfl⟩ := Prod.mk.inj heard
      simp [pending, record, eq, ReadAnswer.weight]

theorem writes_of_fault {p : Port} {offered : List UInt8} {fault : Fault} {after : Port}
    (failed : p.write offered = (.error fault, after)) :
    after.writes.length < p.writes.length := by
  unfold write at failed
  split at failed
  · cases failed
  · cases failed
  · next eq =>
    cases failed
    simp [record, eq]

theorem writes_of_taken {p : Port} {offered : List UInt8} {taken : Nat} {after : Port}
    (ok : p.write offered = (.ok taken, after)) :
    taken ≤ offered.length ∧ after.writes.length ≤ p.writes.length := by
  unfold write at ok
  split at ok
  · cases ok
    exact ⟨Nat.le_refl _, by simp [record]⟩
  · next eq =>
    cases ok
    refine ⟨?_, by simp [record, eq]⟩
    rw [List.length_take]
    exact Nat.min_le_right _ _
  · cases ok

end Port

end LogicCapture.Serial
