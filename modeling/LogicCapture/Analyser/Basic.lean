import LogicCapture.Analyser.Log
import LogicCapture.Image.Compile
import LogicCapture.Link.Basic

/-!
The analyser at the other end of a link, and the session that talks to it. A
session is an action on the analyser that may fail; what it has done until then
stays done. Everything that goes over the link goes through `Analyser.during`,
which keeps the link after the transfer and turns its failure into one of the
phase.
-/

namespace LogicCapture

/-- A link to an analyser with what is known about it. -/
structure Analyser (σ : Type) where
  link : σ
  version : Option UInt8 := none
  geometry : Geometry := .standard
  stage : Stage := .idle
  /-- Lines of the log, newest first. -/
  log : List LogLine := []

/-- An action on an analyser; its effects outlast a failure. -/
abbrev Session (σ : Type) := EStateM AnalyserError (Analyser σ)

namespace Analyser

variable {σ : Type}

/-! ## Log and stage -/

def note (line : LogLine) : Session σ Unit :=
  modify fun a => { a with log := line :: a.log }

/-- Notes lines in order. -/
def noteAll (lines : List LogLine) : Session σ Unit :=
  modify fun a => { a with log := lines.reverse ++ a.log }

/-- Goes to a stage, with a line in the log if it is another one. -/
def enter (stage : Stage) : Session σ Unit :=
  modify fun a =>
    if a.stage = stage then a
    else { a with stage, log := .stageChanged a.stage stage :: a.log }

/-- Forgets what is known about the analyser, but keeps the link and the log. -/
def renew : Session σ Unit := modify fun a => { link := a.link, log := a.log }

/-! ## Transfers -/

/-- One transfer of a phase. -/
def during {α : Type} (phase : Phase) (transfer : σ → Transfer σ α) : Session σ α := fun a =>
  let t := transfer a.link
  let after := { a with link := t.link, log := (t.accepted.map .accepted).reverse ++ a.log }
  match t.result with
  | .ok value => .ok value after
  | .error cause => .error (.link phase cause) after

variable [Link σ]

/-- The most bytes that a transfer may move. -/
def transferUnit : Session σ Nat := return Link.unit (← get).link

/-- Sends a frame in pieces that the link takes. -/
def sendPieces (phase : Phase) (frame : List UInt8) : Session σ Unit := do
  let unit ← transferUnit
  (pieces unit frame).forM fun piece => during phase (Link.send piece)
  note (.sent frame.length phase)

/-- Sends a request as a whole and receives the `length` bytes of its reply. -/
def request (phase : Phase) (frame : List UInt8) (length : Nat) : Session σ (List UInt8) := do
  during phase (Link.send frame)
  let reply ← during phase (Link.receive length)
  if reply.length ≠ length then
    throw (.link phase (.shortRead length reply.length))
  return reply

/-- Sends a command and receives the one byte that answers it. -/
def requestByte (phase : Phase) (command : Wire.Command) : Session σ UInt8 := do
  match ← request phase (Wire.bareFrame command.code) 1 with
  | [byte] => return byte
  | reply => throw (.link phase (.shortRead 1 reply.length))

end Analyser

end LogicCapture
