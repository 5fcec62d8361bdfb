import LogicCapture.Proofs.Wire.ByteOrder

/-!
# Messages

What the host says in one frame, with its parameters. A frame can be told apart
from what follows it: the byte of the command says how many operands there are, and
for table words their number comes first. `Message.frames_injective` draws the
conclusion for any number of frames in a row, however they were cut on their way.
-/

namespace LogicCapture

/-- A frame of the host by what it says. -/
inductive Message where
  | tables (words : List UInt32)
  | control (value : Control)
  | preTrigger (count : Nat)
  | length (count : Nat)
  | status
  | version
  /-- Asks for so many bytes of samples. -/
  | buffer (bytes : Nat)
  | geometry
deriving DecidableEq

namespace Message

open Wire

/-- The parameters are such as a frame has room for. -/
def Fits : Message → Prop
  | tables words => words.length < 65536
  | preTrigger count | length count => count ≤ maxSampleCount
  | buffer bytes => bytes < 65536
  | control _ | status | version | geometry => True

/-- The bytes of the message. -/
def frame : Message → List UInt8
  | tables words => tablesFrame (UInt16.ofNat words.length) (ofWords words)
  | control value => controlFrame value
  | preTrigger count => Command.writePreTrigger.code :: littleEndian 3 count
  | length count => Command.writeLength.code :: littleEndian 3 count
  | status => bareFrame Command.readStatus.code
  | version => bareFrame Command.readVersion.code
  | buffer bytes => bufferFrame (UInt16.ofNat bytes)
  | geometry => bareFrame Command.readGeometry.code

/-! ## Reading frames -/

/-- A number of `width` bytes, low byte first, and what is behind it. -/
def readNumber? (width : Nat) (bytes : List UInt8) : Option (Nat × List UInt8) :=
  if width ≤ bytes.length then some (ofLittleEndian (bytes.take width), bytes.drop width) else none

/-- A number of table words, and what is behind them. -/
def readWords? (count : Nat) (bytes : List UInt8) : Option (List UInt32 × List UInt8) :=
  if 4 * count ≤ bytes.length then
    some (toWords (bytes.take (4 * count)), bytes.drop (4 * count))
  else none

/-- The first message of a stream, and what is behind its frame. -/
def read? : List UInt8 → Option (Message × List UInt8)
  | 0x01 :: rest => do
    let (count, rest) ← readNumber? 2 rest
    let (words, rest) ← readWords? count rest
    return (tables words, rest)
  | 0x02 :: bits :: rest => some (control ⟨bits⟩, rest)
  | 0x03 :: rest => do
    let (count, rest) ← readNumber? 3 rest
    return (preTrigger count, rest)
  | 0x04 :: rest => do
    let (count, rest) ← readNumber? 3 rest
    return (length count, rest)
  | 0x81 :: rest => some (status, rest)
  | 0x82 :: rest => some (version, rest)
  | 0x83 :: rest => do
    let (bytes, rest) ← readNumber? 2 rest
    return (buffer bytes, rest)
  | 0x84 :: rest => some (geometry, rest)
  | _ => none

theorem readNumber?_append {width n : Nat} (fits : n < 256 ^ width) (rest : List UInt8) :
    readNumber? width (littleEndian width n ++ rest) = some (n, rest) := by
  have room : width ≤ (littleEndian width n ++ rest).length := by
    rw [List.length_append, length_littleEndian]
    exact Nat.le_add_right _ _
  have length := length_littleEndian width n
  have front : (littleEndian width n ++ rest).take width = littleEndian width n :=
    List.take_left' length
  have back : (littleEndian width n ++ rest).drop width = rest := List.drop_left' length
  rw [readNumber?, if_pos room, front, back, ofLittleEndian_littleEndian fits]

theorem readWords?_append (words : List UInt32) (rest : List UInt8) :
    readWords? words.length (ofWords words ++ rest) = some (words, rest) := by
  have room : 4 * words.length ≤ (ofWords words ++ rest).length := by
    rw [List.length_append, length_ofWords]
    exact Nat.le_add_right _ _
  rw [readWords?, if_pos room, ← length_ofWords, List.take_left, List.drop_left, toWords_ofWords]

/-- Whatever follows a frame, the message is read from it, and nothing more. -/
theorem read?_frame_append {m : Message} (fits : m.Fits) (rest : List UInt8) :
    read? (m.frame ++ rest) = some (m, rest) := by
  cases m with
  | tables words =>
    have count_fits : words.length < 256 ^ 2 := fits
    rw [frame, tablesFrame, pairBytes_eq fits]
    change read? (0x01 :: (littleEndian 2 words.length ++ ofWords words ++ rest)) = _
    rw [List.append_assoc]
    change (readNumber? 2 (littleEndian 2 words.length ++ (ofWords words ++ rest)) >>= fun _ => _) =
      some (tables words, rest)
    rw [readNumber?_append count_fits]
    change (readWords? words.length (ofWords words ++ rest) >>= fun _ => _) = _
    rw [readWords?_append]
    rfl
  | control value => rfl
  | preTrigger count =>
    have count_fits : count < 256 ^ 3 := Nat.lt_succ_of_le fits
    change (readNumber? 3 (littleEndian 3 count ++ rest) >>= fun _ => _) = _
    rw [readNumber?_append count_fits]
    rfl
  | length count =>
    have count_fits : count < 256 ^ 3 := Nat.lt_succ_of_le fits
    change (readNumber? 3 (littleEndian 3 count ++ rest) >>= fun _ => _) = _
    rw [readNumber?_append count_fits]
    rfl
  | buffer bytes =>
    have bytes_fit : bytes < 256 ^ 2 := fits
    rw [frame, bufferFrame, pairBytes_eq fits]
    change (readNumber? 2 (littleEndian 2 bytes ++ rest) >>= fun _ => _) = _
    rw [readNumber?_append bytes_fit]
    rfl
  | status | version | geometry => rfl

theorem frame_ne_nil (m : Message) : m.frame ≠ [] := by
  cases m <;> exact List.cons_ne_nil _ _

/-- Bytes of frames in a row are those of one sequence of messages only. -/
theorem frames_injective {messages others : List Message} (fit : ∀ m ∈ messages, m.Fits)
    (others_fit : ∀ m ∈ others, m.Fits)
    (same : messages.flatMap frame = others.flatMap frame) : messages = others := by
  induction messages generalizing others with
  | nil =>
    cases others with
    | nil => rfl
    | cons m others =>
      rw [List.flatMap_nil, List.flatMap_cons] at same
      exact absurd (List.append_eq_nil_iff.1 same.symm).1 m.frame_ne_nil
  | cons m messages ih =>
    cases others with
    | nil =>
      rw [List.flatMap_nil, List.flatMap_cons] at same
      exact absurd (List.append_eq_nil_iff.1 same).1 m.frame_ne_nil
    | cons other others =>
      rw [List.flatMap_cons, List.flatMap_cons] at same
      have first := read?_frame_append (fit m List.mem_cons_self) (messages.flatMap frame)
      rw [same, read?_frame_append (others_fit other List.mem_cons_self)] at first
      obtain ⟨rfl, behind⟩ := Prod.mk.inj (Option.some.inj first)
      rw [ih (fun m' mem => fit m' (List.mem_cons_of_mem _ mem))
        (fun m' mem => others_fit m' (List.mem_cons_of_mem _ mem)) behind.symm]

end Message

end LogicCapture
