import LogicCapture.Capture.Settings
import LogicCapture.Wire.Control

/-!
Frames that the host sends. A frame starts with the byte of its command; the
highest bit of that byte is set when the analyser answers. Lengths and counts
follow with their low byte first. Samples come back low byte first as well.
-/

namespace LogicCapture.Wire

/-! ## Commands -/

inductive Command where
  | loadTables
  | writeControl
  | writePreTrigger
  | writeLength
  | readStatus
  | readVersion
  | readBuffer
  | readGeometry
deriving DecidableEq

def Command.code : Command → UInt8
  | loadTables => 0x01
  | writeControl => 0x02
  | writePreTrigger => 0x03
  | writeLength => 0x04
  | readStatus => 0x81
  | readVersion => 0x82
  | readBuffer => 0x83
  | readGeometry => 0x84

/-! ## Frames -/

/-- The two bytes of a 16-bit number, low byte first. -/
def pairBytes (n : UInt16) : List UInt8 := [n.toUInt8, (n >>> 8).toUInt8]

/-- A command without operands. -/
def bareFrame (code : UInt8) : List UInt8 := [code]

def controlFrame (c : Control) : List UInt8 := [Command.writeControl.code, c.bits]

/-- A command with a 24-bit sample count; larger counts have no frame. -/
def countFrame? (code : UInt8) (count : Nat) : Option (List UInt8) :=
  if count ≤ maxSampleCount then
    some [code, UInt8.ofNat count, UInt8.ofNat (count / 256), UInt8.ofNat (count / 65536)]
  else none

/-- The tables of the engine: the number of words, then the words. -/
def tablesFrame (count : UInt16) (payload : List UInt8) : List UInt8 :=
  Command.loadTables.code :: pairBytes count ++ payload

/-- A request for `count` bytes of samples. -/
def bufferFrame (count : UInt16) : List UInt8 := Command.readBuffer.code :: pairBytes count

/-! ## Replies -/

/-- The first bytes of a geometry reply. -/
def geometryKey : List UInt8 := [0xA5, 0x5E, 0x12, 0x34]

/-- A sample from its two bytes, low byte first. -/
def sampleOfBytes (low high : UInt8) : UInt16 := low.toUInt16 ||| high.toUInt16 <<< 8

/-- The whole samples at the front of `bytes`, after `read`, newest first. -/
def samplesOnto (read : List UInt16) : List UInt8 → List UInt16
  | low :: high :: rest => samplesOnto (sampleOfBytes low high :: read) rest
  | _ => read.reverse

/-- The whole samples at the front of `bytes`. -/
def samples (bytes : List UInt8) : List UInt16 := samplesOnto [] bytes

end LogicCapture.Wire
