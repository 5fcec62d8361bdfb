import LogicCapture.Proofs.Session.Configuration
import LogicCapture.Proofs.Session.ReadBack
import LogicCapture.Proofs.Wire.Message

/-!
# What the host says

A call that succeeds says what it has to say in one message or more, and delivers the
bytes of their frames, in whatever pieces the link takes. So the bytes that calls have
delivered determine the messages one by one, with all their parameters: it does not
matter which links the calls went over and how the frames were cut.
-/

namespace LogicCapture

/-- The messages of a call over a link of unit `unit`, for calls that say the same
whenever they succeed. -/
def IdleCall.messages? (unit : Nat) : IdleCall → Option (List Message)
  | compileAndLoad program | loadProgram program => some [.tables program.compile.words]
  | writeLength count => some [.length count]
  | writePreTrigger count => some [.preTrigger count]
  | writeControl control => some [.control control]
  | readStatus => some [.status]
  | readVersion => some [.version]
  | readGeometry => some [.geometry]
  | readSamples count => some ((Analyser.requestLengths unit count).map .buffer)
  | version | geometry | transferUnit | tryReadVersion | start _ | pollUntilDone | capture _
  | renew | arm _ => none

/-! ## Delivered bytes -/

/-- What transfers have delivered, in their order. -/
def sentBy (made : List Exchange) : List (List UInt8) :=
  made.filterMap fun
    | .sent bytes (.ok _) => some bytes
    | _ => none

theorem sentBy_sent (sent : List (List UInt8)) : sentBy (sent.map (.sent · (.ok ()))) = sent := by
  rw [sentBy, List.filterMap_map]
  exact List.filterMap_some

namespace Analyser

open Session

variable {σ : Type} [Link σ] {a b : Analyser (Recorded σ)}

theorem sentBy_bufferRead (parts : List (List UInt8)) : sentBy (parts.flatMap bufferRead) =
    parts.map fun part => 0x83 :: Wire.littleEndian 2 part.length := by
  induction parts with
  | nil => rfl
  | cons part rest ih =>
    rw [List.flatMap_cons, sentBy, List.filterMap_append, ← sentBy, ← sentBy, ih]
    rfl

theorem delivered_of_extends {made : List Exchange} (extended : Extends a b made) :
    b.link.delivered = a.link.delivered ++ sentBy made := by
  rw [Recorded.delivered, extended.exchanges, List.reverse_append, List.reverse_reverse,
    List.filterMap_append]
  rfl

/-- Frames that a session sends arrive as a whole. -/
theorem delivered_of_delivers {α : Type} {x : Session (Recorded σ) α}
    {frames : List (Phase × List UInt8)} {meanwhile final : Stage} {value : α}
    (delivers : Delivers x frames a meanwhile final) (run : x a = .ok value b) :
    ∃ sent, b.link.delivered = a.link.delivered ++ sent ∧
      sent.flatten = frames.flatMap Prod.snd := by
  obtain ⟨cuts, cutBy, ends⟩ := delivers
  obtain ⟨made, extended, -, follows⟩ := ends.ok run
  obtain ⟨sent, cut, asks⟩ := exists_pieces_of_cutBy cutBy
  have made_eq := follows.eq_sent asks
  refine ⟨sent.flatten, ?_, ?_⟩
  · rw [delivered_of_extends extended, made_eq, sentBy_sent]
  · have whole : sent.map List.flatten = frames.map Prod.snd := by
      refine (eq_map_of_forall₂ (f := id) ?_ fun _ _ same => same).trans (List.map_id _)
      rw [List.forall₂_map_right_iff]
      refine cut.imp fun frame parts part => ?_
      obtain ⟨t, -, rfl⟩ := part
      exact flatten_pieces _ frame
    rw [List.flatten_flatten, whole, List.flatMap_def]

/-- A count that was written is one that the register holds. -/
theorem count_le_of_writeCount {phase : Phase} {command : Wire.Command} {count : Nat}
    (run : writeCount phase command count a = .ok () b) : count ≤ maxSampleCount := by
  apply Decidable.byContradiction
  intro large
  rw [writeCount, Wire.countFrame?, if_neg large] at run
  cases run

/-! ## What calls say -/

/-- From the one state to the other the link delivered the frames of these messages,
all of which have their parameters in them. -/
def Said (a b : Analyser (Recorded σ)) (messages : List Message) : Prop :=
  (∀ m ∈ messages, m.Fits) ∧ ∃ sent, b.link.delivered = a.link.delivered ++ sent ∧
    sent.flatten = messages.flatMap Message.frame

theorem said_of_delivers {x : Session (Recorded σ) Unit} {phase : Phase} {m : Message}
    {meanwhile final : Stage} (fits : m.Fits)
    (delivers : Delivers x [(phase, m.frame)] a meanwhile final) (run : x a = .ok () b) :
    Said a b [m] := by
  obtain ⟨sent, delivered, whole⟩ := delivered_of_delivers delivers run
  refine ⟨fun other mem => List.mem_singleton.1 mem ▸ fits, sent, delivered, ?_⟩
  rw [whole, List.flatMap_singleton, List.flatMap_singleton]

theorem said_of_load {p : Program} (run : load p.compile a = .ok () b) :
    Said a b [.tables p.compile.words] :=
  said_of_delivers (m := .tables p.compile.words) p.length_words_lt
    (load_delivers (geometry_of_load run)) run

theorem said_of_compileAndLoad {p : Program} (run : compileAndLoad p a = .ok () b) :
    Said a b [.tables p.compile.words] := by
  obtain ⟨_, c, noted, loaded⟩ := ok_of_bind run
  cases noted
  have said := said_of_load loaded
  exact said

theorem said_of_loadProgram {p : Program} (run : loadProgram p a = .ok () b) :
    Said a b [.tables p.compile.words] := by
  obtain ⟨_, c, noted, compiled⟩ := ok_of_bind run
  cases noted
  have said := said_of_compileAndLoad compiled
  exact said

theorem said_of_writeLength {count : Nat} (run : writeLength count a = .ok () b) :
    Said a b [.length count] := by
  have fits := count_le_of_writeCount run
  exact said_of_delivers (m := .length count) fits (writeCount_delivers _ _ fits rfl) run

theorem said_of_writePreTrigger {count : Nat} (run : writePreTrigger count a = .ok () b) :
    Said a b [.preTrigger count] := by
  have fits := count_le_of_writeCount run
  exact said_of_delivers (m := .preTrigger count) fits (writeCount_delivers _ _ fits rfl) run

theorem said_of_writeControl {control : Control} (run : writeControl control a = .ok () b) :
    Said a b [.control control] :=
  said_of_delivers (m := .control control) trivial (writeControl_delivers control rfl) run

theorem said_of_request {phase : Phase} {m : Message} {length : Nat} {reply : List UInt8}
    (fits : m.Fits) (run : request phase m.frame length a = .ok reply b) : Said a b [m] := by
  obtain ⟨made, extended, -, -, rfl⟩ := (request_ends phase m.frame length a).ok run
  exact ⟨fun other mem => List.mem_singleton.1 mem ▸ fits, _, delivered_of_extends extended, rfl⟩

theorem said_of_requestByte {phase : Phase} {command : Wire.Command} {m : Message} {byte : UInt8}
    (fits : m.Fits) (frame : m.frame = [command.code])
    (run : requestByte phase command a = .ok byte b) : Said a b [m] := by
  obtain ⟨reply, c, requested, read⟩ := ok_of_bind run
  have same : c = b := by
    split at read
    · cases read
      rfl
    · cases read
  rw [Wire.bareFrame, ← frame] at requested
  exact same ▸ said_of_request fits requested

theorem said_of_readStatus {status : Status} (run : readStatus a = .ok status b) :
    Said a b [.status] := by
  obtain ⟨byte, c, requested, read⟩ := ok_of_bind run
  have same : c = b := by
    cases legal : Status.ofByte? byte with
    | some status =>
      rw [legal] at read
      cases read
      rfl
    | none =>
      rw [legal] at read
      cases read
  exact same ▸ said_of_requestByte (m := .status) trivial rfl requested

theorem said_of_readGeometry {geometry : Geometry} (run : readGeometry a = .ok geometry b) :
    Said a b [.geometry] := by
  obtain ⟨reply, c, requested, read⟩ := ok_of_bind run
  have same : c = b := by
    cases told : geometryOfReply reply with
    | ok geometry =>
      rw [told] at read
      cases read
      rfl
    | error error =>
      rw [told] at read
      cases read
  exact same ▸ said_of_request (m := .geometry) trivial requested

theorem said_of_readSamples {count : Nat} {samples : List UInt16}
    (run : readSamples count a = .ok samples b) :
    Said a b ((requestLengths (Link.unit a.link) count).map .buffer) := by
  obtain ⟨made, extended, carries, -, parts, lengths, rfl, -⟩ := (readSamples_ends count a).ok run
  have some_fit : 0 < requestUnit (Link.unit a.link) := by
    rw [requestUnit]
    omega
  have short : ∀ length ∈ requestLengths (Link.unit a.link) count, length < 65536 := by
    intro length mem
    have fits := le_of_mem_pieceLengths some_fit mem
    rw [requestUnit] at fits
    omega
  refine ⟨?_, _, delivered_of_extends extended, ?_⟩
  · intro m mem
    obtain ⟨length, length_mem, rfl⟩ := List.mem_map.1 mem
    exact short length length_mem
  · rw [sentBy_bufferRead, List.flatMap_map, ← lengths, List.flatMap_map, List.flatMap_def]
    congr 1
    refine List.map_congr_left fun part mem => ?_
    have fits := short part.length (lengths ▸ List.mem_map_of_mem mem)
    rw [Message.frame, Wire.bufferFrame, Wire.pairBytes_eq fits]
    rfl

end Analyser

namespace Handle

open Session Analyser

variable {σ : Type} [Link σ] {a b : Analyser (Recorded σ)}

/-- A call that succeeds says what it has to say. -/
theorem said_of_idleSession {horizon : Horizon} {call : IdleCall} {answer : Answer}
    {messages : List Message} (run : idleSession horizon call a = .ok answer b)
    (told : call.messages? (Link.unit a.link) = some messages) : Said a b messages := by
  cases call with
  | compileAndLoad p =>
    cases told
    obtain ⟨_, c, done, rest⟩ := ok_of_seqRight run
    cases rest
    exact said_of_compileAndLoad done
  | loadProgram p =>
    cases told
    obtain ⟨_, c, done, rest⟩ := ok_of_seqRight run
    cases rest
    exact said_of_loadProgram done
  | writeLength count =>
    cases told
    obtain ⟨_, c, done, rest⟩ := ok_of_seqRight run
    cases rest
    exact said_of_writeLength done
  | writePreTrigger count =>
    cases told
    obtain ⟨_, c, done, rest⟩ := ok_of_seqRight run
    cases rest
    exact said_of_writePreTrigger done
  | writeControl control =>
    cases told
    obtain ⟨_, c, done, rest⟩ := ok_of_seqRight run
    cases rest
    exact said_of_writeControl done
  | readStatus =>
    cases told
    obtain ⟨status, read, -⟩ := ok_of_map run
    exact said_of_readStatus read
  | readVersion =>
    cases told
    obtain ⟨version, read, -⟩ := ok_of_map run
    exact said_of_requestByte trivial rfl read
  | readGeometry =>
    cases told
    obtain ⟨geometry, read, -⟩ := ok_of_map run
    exact said_of_readGeometry read
  | readSamples count =>
    cases told
    obtain ⟨samples, read, -⟩ := ok_of_map run
    exact said_of_readSamples read
  | version | geometry | transferUnit | tryReadVersion | start | pollUntilDone | capture | renew
    | arm => cases told

/-- What calls that succeed deliver, and the messages that they mean by it. Each call
may be one of another session, over a link of its own. -/
inductive Issued : (delivered : List (List UInt8)) → (messages : List Message) → Prop
  | none : Issued [] []
  | call {σ : Type} [Link σ] {a b : Analyser (Recorded σ)} {horizon : Horizon} {call : IdleCall}
    {answer : Answer} {sent more : List (List UInt8)} {messages others : List Message} :
    idleSession horizon call a = .ok answer b →
      call.messages? (Link.unit a.link) = some messages →
        b.link.delivered = a.link.delivered ++ sent → Issued more others →
          Issued (sent ++ more) (messages ++ others)

/-- All that was delivered are the frames of the messages. -/
theorem Issued.frames {sent : List (List UInt8)} {messages : List Message}
    (issued : Issued sent messages) :
    (∀ m ∈ messages, m.Fits) ∧ sent.flatten = messages.flatMap Message.frame := by
  induction issued with
  | none => exact ⟨nofun, rfl⟩
  | call run told delivered _ ih =>
    obtain ⟨fit, whole, delivered', flattened⟩ := said_of_idleSession run told
    obtain rfl := List.append_cancel_left (delivered.symm.trans delivered')
    refine ⟨fun m mem => ?_, ?_⟩
    · rcases List.mem_append.1 mem with first | later
      · exact fit m first
      · exact ih.1 m later
    · rw [List.flatten_append, List.flatMap_append, flattened, ih.2]

/-- The bytes that calls delivered tell where every frame ends and what it says:
calls that delivered the same bytes sent the same messages one by one, so the same
frames with the same words, counts, control bits and numbers of bytes, in whatever
pieces their links took them. -/
theorem messages_of_delivered {sent sent' : List (List UInt8)} {messages messages' : List Message}
    (issued : Issued sent messages) (issued' : Issued sent' messages')
    (same : sent.flatten = sent'.flatten) :
    messages = messages' ∧ messages.map Message.frame = messages'.map Message.frame ∧
      sent.flatten = (messages.map Message.frame).flatten := by
  obtain ⟨fit, whole⟩ := issued.frames
  obtain ⟨fit', whole'⟩ := issued'.frames
  obtain rfl := Message.frames_injective fit fit' (whole.symm.trans (same.trans whole'))
  exact ⟨rfl, rfl, whole.trans List.flatMap_def⟩

/-- An analyser that is done with its capture, over a link that moves `unit` bytes. -/
def finished (unit : Nat) : Analyser (Recorded Script) where
  link := ⟨{ unit, replies := [.bytes [4]] }, []⟩

/-- A horizon for calls that do not look at it. -/
def atOnce : Horizon := ⟨fun _ => 0, 0⟩

/-- The same after the control register was cleared. -/
def cleared (unit : Nat) : Analyser (Recorded Script) :=
  after (idleSession atOnce (.writeControl .clear)) (finished unit)

/-- The same after it was then asked for its status. -/
def questioned (unit : Nat) : Analyser (Recorded Script) :=
  after (idleSession atOnce .readStatus) (cleared unit)

/-- Two bytes sent apart or together are one frame, and the third is another. -/
theorem messages_of_delivered_apart :
    Issued [[0x02], [0x02], [0x81]] [.control ⟨2⟩, .status] ∧
      Issued [[0x02, 0x02], [0x81]] [.control ⟨2⟩, .status] ∧
      ∀ sent messages, Issued sent messages → sent.flatten = [0x02, 0x02, 0x81] →
        [.control ⟨2⟩, .status] = messages := by
  have clear₁ : idleSession atOnce (.writeControl .clear) (finished 1) = .ok .done (cleared 1) := by
    with_unfolding_all rfl
  have clear₂ : idleSession atOnce (.writeControl .clear) (finished 2) = .ok .done (cleared 2) := by
    with_unfolding_all rfl
  have ask₁ : idleSession atOnce .readStatus (cleared 1) = .ok (.status .done) (questioned 1) := by
    with_unfolding_all rfl
  have ask₂ : idleSession atOnce .readStatus (cleared 2) = .ok (.status .done) (questioned 2) := by
    with_unfolding_all rfl
  have apart : Issued ([[0x02], [0x02]] ++ ([[0x81]] ++ [])) [.control ⟨2⟩, .status] :=
    .call clear₁ rfl (by with_unfolding_all rfl) (.call ask₁ rfl (by with_unfolding_all rfl) .none)
  have together : Issued ([[0x02, 0x02]] ++ ([[0x81]] ++ [])) [.control ⟨2⟩, .status] :=
    .call clear₂ rfl (by with_unfolding_all rfl) (.call ask₂ rfl (by with_unfolding_all rfl) .none)
  exact ⟨apart, together, fun sent messages issued same =>
    (messages_of_delivered apart issued same.symm).1⟩

end Handle

end LogicCapture
