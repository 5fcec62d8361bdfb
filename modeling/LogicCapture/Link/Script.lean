import LogicCapture.Link.Basic

/-!
Scripted links: an analyser played from a list of replies, with faults put in
where they are wanted.
-/

namespace LogicCapture

/-- What a scripted link does when bytes are asked for. -/
inductive Reply where
  /-- Answers if the number of bytes is the one asked for, else fails short. -/
  | bytes (bytes : List UInt8)
  /-- Answers with these bytes, however many were asked for. -/
  | raw (bytes : List UInt8)
  /-- Answers with as many bytes as asked, byte `i` being `first + step * i`. -/
  | ramp (first step : Nat)
  | fails (error : LinkError)

structure Script where
  unit : Nat := defaultUnit
  /-- Sends that fail, by their number. -/
  faults : List (Nat × LinkError) := []
  replies : List Reply := []
  /-- Sends so far, failed ones too. -/
  sends : Nat := 0

namespace Script

/-- What a reply gives when `asked` bytes are asked for. -/
def answer (asked : Nat) : Reply → Except LinkError (List UInt8)
  | .bytes bytes =>
    if bytes.length = asked then .ok bytes else .error (.shortRead asked bytes.length)
  | .raw bytes => .ok bytes
  | .ramp first step => .ok ((List.range asked).map fun i => UInt8.ofNat (first + step * i))
  | .fails error => .error error

/-- The next reply; without one the time runs out at once. -/
def receive (asked : Nat) (s : Script) : Transfer Script (List UInt8) :=
  match s.replies with
  | [] => ⟨.error (.timeout 0), s, []⟩
  | reply :: rest => ⟨answer asked reply, { s with replies := rest }, []⟩

def send (_ : List UInt8) (s : Script) : Transfer Script Unit :=
  let after := { s with sends := s.sends + 1 }
  match s.faults.lookup s.sends with
  | some error => ⟨.error error, after, []⟩
  | none => ⟨.ok (), after, []⟩

instance : Link Script where
  unit := Script.unit
  send := Script.send
  receive := Script.receive

/-- More polls than this one cannot be answered. -/
def patience (s : Script) : Nat := s.replies.length + 1

end Script

end LogicCapture
