import LogicCapture.Link.Basic
import LogicCapture.Serial.Port
import LogicCapture.Text.Duration
import LogicCapture.Text.Quoted

/-!
A link over a serial port. Sending goes on until the port has taken every byte,
receiving until every byte has arrived; both go on when only the port's own time
ran out, unless the time for the transfer has run out too.
-/

namespace LogicCapture.Serial

structure LinkSettings where
  baudRate : Nat := 3000000
  /-- Nanoseconds allowed for one transfer. -/
  timeout : Nat := 10000000
  transferUnit : Nat := defaultUnit

structure SerialLink where
  port : Port
  settings : LinkSettings

namespace SerialLink

/-- Empties the buffers of the port. -/
def clear (l : SerialLink) : Transfer SerialLink Unit :=
  let (result, port) := l.port.clear
  { result := result.mapError .port, link := { l with port } }

/-! ## Sending -/

/-- Offers what is left of `total` bytes until the port has taken all of it; the
transfer began at `start`. The parts taken so far are in `accepted`, newest
first. -/
def sendRest (total start : Nat) (accepted : List Nat) (rest : List UInt8) (l : SerialLink) :
    Transfer SerialLink Unit :=
  if rest = [] then ⟨.ok (), l, accepted⟩
  else
    match outcome : l.port.write rest with
    | (.ok 0, port) => ⟨.error (.shortWrite total (total - rest.length)), { l with port }, accepted⟩
    | (.ok (taken + 1), port) =>
      sendRest total start ((taken + 1) :: accepted) (rest.drop (taken + 1)) { l with port }
    | (.error fault, port) =>
      if fault.timedOut then
        let waited := { l with port := port.now.2 }
        if l.settings.timeout ≤ port.now.1 - start then
          ⟨.error (.shortWrite total (total - rest.length)), waited, accepted⟩
        else sendRest total start accepted rest waited
      else ⟨.error (.io fault.text), { l with port }, accepted⟩
termination_by rest.length + l.port.writes.length
decreasing_by
  · have := Port.writes_of_taken outcome
    simp only [List.length_drop]
    omega
  · have := Port.writes_of_fault outcome
    simp only [Port.now] at *
    omega

/-- Sends bytes and waits until they have left the host. -/
def send (bytes : List UInt8) (l : SerialLink) : Transfer SerialLink Unit :=
  let (start, port) := l.port.now
  let t := sendRest bytes.length start [] bytes { l with port }
  match t.result with
  | .error error => ⟨.error error, t.link, t.accepted.reverse⟩
  | .ok _ =>
    let (flushed, port) := t.link.port.flush
    ⟨flushed.mapError fun fault => .io fault.text, { t.link with port }, t.accepted.reverse⟩

/-! ## Receiving -/

/-- Reads until `length` bytes have arrived; the transfer began at `start`. The
clock is looked at after every read that leaves some missing. -/
def receiveRest (length start : Nat) (got : List UInt8) (l : SerialLink) :
    Transfer SerialLink (List UInt8) :=
  if length ≤ got.length then ⟨.ok got, l, []⟩
  else
    match outcome : l.port.hear (length - got.length) with
    | (.error text, port) => ⟨.error (.io text), { l with port }, []⟩
    | (.ok bytes, port) =>
      let gathered := got ++ bytes
      if length ≤ gathered.length then ⟨.ok gathered, { l with port }, []⟩
      else
        let waited := { l with port := port.now.2 }
        if l.settings.timeout ≤ port.now.1 - start then
          if gathered = [] then
            let later := waited.port.now
            ⟨.error (.timeout ((later.1 - start) / 1000000)), { l with port := later.2 }, []⟩
          else ⟨.error (.shortRead length gathered.length), waited, []⟩
        else receiveRest length start gathered waited
termination_by l.port.pending
decreasing_by
  have space : 0 < length - got.length := by omega
  have used := Port.pending_of_heard space outcome
  simpa [Port.now, Port.pending] using used

/-- Receives exactly `length` bytes. -/
def receive (length : Nat) (l : SerialLink) : Transfer SerialLink (List UInt8) :=
  let (start, port) := l.port.now
  receiveRest length start [] { l with port }

/-- More bytes than this cannot be numbered, so no buffer holds them. -/
def mostBytes : Nat := (1 <<< 63) - 1

/-- Receives as `receive` does, but only what a buffer can hold. Otherwise the
port is not touched. -/
def receiveWithin (length : Nat) (l : SerialLink) :
    Option (Transfer SerialLink (List UInt8)) :=
  if length ≤ mostBytes then some (l.receive length) else none

instance : Link SerialLink where
  unit l := l.settings.transferUnit
  send := send
  receive := receive

/-- The link with its port and its settings, field by field. -/
def text (l : SerialLink) : String :=
  let port := match l.port.name with
    | some name => s!"Some({Text.quoted name})"
    | none => "None"
  s!"SerialLink \x7b port: {port}, config: LinkConfig \x7b " ++
    s!"baud_rate: {l.settings.baudRate}, timeout: {Text.duration l.settings.timeout}, " ++
    s!"max_transfer_unit: {l.settings.transferUnit} \x7d \x7d"

end SerialLink

end LogicCapture.Serial
