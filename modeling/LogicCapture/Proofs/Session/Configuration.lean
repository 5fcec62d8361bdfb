import LogicCapture.Proofs.Image.Frame
import LogicCapture.Proofs.Session.Delivery

/-!
# Setting up an acquisition

To start an acquisition is to send six frames. What is sent follows from the
program and the transfer unit alone: over a link whose sends succeed the start
succeeds whatever the analyser went through before, and over any link a program
for another engine is turned down before anything is sent.
-/

namespace LogicCapture

/-- The frames that set up an acquisition: the tables, the length, the part
before the trigger, then the control register cleared, with the rate, and with
the rate and the start bit. -/
def Program.setUpFrames (p : Program) : List (List UInt8) :=
  [0x01 :: Wire.littleEndian 2 p.compile.words.length ++
      p.compile.words.flatMap fun word => Wire.bigEndian 4 word.toNat,
    0x04 :: Wire.littleEndian 3 p.settings.length,
    0x03 :: Wire.littleEndian 3 p.settings.preTrigger,
    [0x02, 0x02],
    [0x02, p.settings.rate.controlBits],
    [0x02, p.settings.rate.controlBits ||| 1]]

/-- The frames that set up an acquisition, each with its phase. -/
def Program.setUp (p : Program) : List (Phase × List UInt8) :=
  [.loadTables, .writeLength, .writePreTrigger, .writeControl, .writeControl, .writeControl].zip
    p.setUpFrames

/-! ## The rate in its frame -/

/-- The rate's fields are where the register has them, and nothing else is. -/
theorem Rate.toNat_controlBits (r : Rate) :
    r.controlBits.toNat = r.divider.val * 4 + r.exponent.val * 16 := by
  rw [controlBits, UInt8.toNat_ofNat']
  omega

theorem Control.rate_controlBits (r : Rate) :
    (Control.rate r.controlBits).bits = r.controlBits := by
  obtain ⟨divider, exponent⟩ := r
  revert divider exponent
  decide

/-! ## The start of an acquisition -/

namespace Analyser

open Session

variable {σ : Type} [Link σ] {m : Nat} {g : Geometry} {a : Analyser (Recorded σ)}

theorem loadProgram_delivers {p : Program} (same : p.geometry = a.geometry) :
    Delivers (loadProgram p) [(.loadTables, p.compile.frame)] a .configuring .configuring :=
  .after_quiet rfl rfl (.after_quiet rfl rfl (load_delivers (p.compile_geometry.trans same)))

/-- The start of an acquisition sends the six frames. -/
theorem start_delivers {p : Program} (same : p.geometry = a.geometry) :
    Delivers (start p) p.setUp a .configuring .armed := by
  have preTrigger := Nat.le_trans p.settings.preTrigger_le p.settings.length_le
  have frames : p.setUp = [(.loadTables, p.compile.frame)] ++
      ([(.writeLength, 0x04 :: Wire.littleEndian 3 p.settings.length)] ++
      ([(.writePreTrigger, 0x03 :: Wire.littleEndian 3 p.settings.preTrigger)] ++
      ([(.writeControl, [0x02, Control.clear.bits])] ++
      ([(.writeControl, [0x02, (Control.rate p.settings.rate.controlBits).bits])] ++
      ([(.writeControl, [0x02, (Control.rate p.settings.rate.controlBits).started.bits])] ++
      []))))) := by
    rw [Control.started, Control.rate_controlBits, p.frame_compile]
    rfl
  rw [frames]
  refine (loadProgram_delivers same).bind fun _ b there => ?_
  refine (writeCount_delivers .writeLength .writeLength p.settings.length_le there).bind
    fun _ c there => ?_
  refine (writeCount_delivers .writePreTrigger .writePreTrigger preTrigger there).bind
    fun _ d there => ?_
  refine (writeControl_delivers .clear there).bind fun _ e there => ?_
  refine (writeControl_delivers (Control.rate _) there).bind fun _ f there => ?_
  refine (writeControl_delivers (Control.started _) there).bind fun _ g there => ?_
  obtain ⟨h, entered, link, armed⟩ := enter_run .armed g
  exact .quiet entered link armed

/-- An analyser for the geometry `g`, over a link of unit `m` that takes what
is sent. -/
structure Ready (m : Nat) (g : Geometry) (a : Analyser (Recorded σ)) : Prop where
  geometry : a.geometry = g
  steady : Link.Steady m a.link.link
  willing : Link.Willing a.link.link

theorem sends_start {p : Program} (same : p.geometry = g) (a : Analyser (Recorded σ))
    (ready : Ready m g a) :
    ∃ b, start p a = .ok () b ∧ Link.Reaches a.link.link b.link.link ∧ b.stage = .armed ∧
      b.link.exchanges = ((p.setUpFrames.map (pieces m)).flatten.map
        (Exchange.sent · (.ok ()))).reverse ++ a.link.exchanges := by
  obtain ⟨cuts, cutBy, started⟩ := start_delivers (same.trans ready.geometry.symm)
  obtain ⟨sent, cut, asks⟩ := exists_pieces_of_cutBy cutBy
  have sent_eq : sent = p.setUpFrames.map (pieces m) := by
    refine eq_map_of_forall₂ cut fun frame parts part => ?_
    obtain ⟨t, reached, rfl⟩ := part
    rw [ready.steady t reached]
  rw [sent_eq] at asks
  obtain ⟨_, b, run⟩ := exists_ok_of_willing started asks ready.willing
  obtain ⟨made, extended, armed, follows⟩ := started.ok run
  obtain rfl := follows.eq_sent asks
  exact ⟨b, run, extended.replayed.reaches, armed, extended.exchanges⟩

/-- A program for another engine is compiled, as the log tells, and no more. -/
theorem start_of_mismatch {p : Program} {a : Analyser (Recorded σ)}
    (other : p.geometry ≠ a.geometry) :
    start p a = .error (.trigger .geometryMismatch)
      { a with log := p.compileLog.reverse ++ (p.listing.reverse ++ a.log) } := by
  have refused : ∀ b : Analyser (Recorded σ), b.geometry = a.geometry →
      load p.compile b = .error (.trigger .geometryMismatch) b := by
    intro b same
    have ne : p.compile.geometry ≠ b.geometry := by rwa [p.compile_geometry, same]
    change (if p.compile.geometry ≠ b.geometry then _ else _ : Session (Recorded σ) Unit) b = _
    rw [if_pos ne]
    rfl
  have compiled : ∀ b : Analyser (Recorded σ), b.geometry = a.geometry →
      compileAndLoad p b = .error (.trigger .geometryMismatch)
        { b with log := p.compileLog.reverse ++ b.log } := by
    intro b same
    have noted : noteAll p.compileLog b = .ok () { b with log := p.compileLog.reverse ++ b.log } :=
      rfl
    exact (bind_of_ok noted).trans (refused _ same)
  have listed : noteAll p.listing a = .ok () { a with log := p.listing.reverse ++ a.log } := rfl
  exact bind_of_error ((bind_of_ok listed).trans (compiled _ rfl))

/-- Over a link that takes what is sent, the start of an acquisition succeeds
whatever was before, and sends the six frames, each cut to the unit of the link.
A program for another engine is turned down and nothing is sent. The counts and
the rate can be read off the frames again. -/
theorem start_sends_setUpFrames (p : Program) (a : Analyser (Recorded σ)) :
    (p.geometry = a.geometry → ∀ m, Link.Steady m a.link.link → Link.Willing a.link.link →
      ∃ b sent, start p a = .ok () b ∧ b.stage = .armed ∧
        List.Forall₂ (Cut m) p.setUpFrames sent ∧
        b.link.exchanges =
          (sent.flatten.map (Exchange.sent · (.ok ()))).reverse ++ a.link.exchanges) ∧
    (p.geometry ≠ a.geometry → ∃ b, start p a = .error (.trigger .geometryMismatch) b ∧
      b.link = a.link ∧ b.stage = a.stage) ∧
    (Wire.ofLittleEndian (Wire.littleEndian 2 p.compile.words.length) = p.compile.words.length ∧
      Wire.ofLittleEndian (Wire.littleEndian 3 p.settings.length) = p.settings.length ∧
      Wire.ofLittleEndian (Wire.littleEndian 3 p.settings.preTrigger) = p.settings.preTrigger) ∧
    p.settings.rate.controlBits.toNat % 4 = 0 ∧
      p.settings.rate.controlBits.toNat / 4 % 4 = p.settings.rate.divider.val ∧
      p.settings.rate.controlBits.toNat / 16 = p.settings.rate.exponent.val := by
  have length := p.settings.length_le
  have preTrigger := Nat.le_trans p.settings.preTrigger_le length
  have bits := p.settings.rate.toNat_controlBits
  have divider := p.settings.rate.divider.isLt
  refine ⟨fun same m steady willing => ?_, fun other => ?_, ⟨?_, ?_, ?_⟩, by omega, by omega,
    by omega⟩
  · obtain ⟨b, run, -, stage, exchanges⟩ := sends_start same a ⟨rfl, steady, willing⟩
    refine ⟨b, _, run, stage, ?_, exchanges⟩
    rw [List.forall₂_map_right_iff, List.forall₂_same]
    exact fun frame _ => cut_pieces m frame
  · exact ⟨_, start_of_mismatch other, rfl, rfl⟩
  · exact Wire.ofLittleEndian_littleEndian p.length_words_lt
  · exact Wire.ofLittleEndian_littleEndian (Nat.lt_succ_of_le length)
  · exact Wire.ofLittleEndian_littleEndian (Nat.lt_succ_of_le preTrigger)

/-- An analyser that stopped answering while it was running, over a link that
states a unit of no bytes. -/
def interrupted : Analyser (Recorded Script) where
  link := ⟨{ unit := 0 }, [.received 1 (.error (.timeout 0)), .sent [0x81] (.ok ())]⟩
  stage := .running

/-- It is started again byte by byte. -/
theorem start_sends_setUpFrames_interrupted :
    Link.Steady 0 interrupted.link.link ∧ Link.Willing interrupted.link.link ∧
      ∃ b sent, start (Program.make .standard .standard) interrupted = .ok () b ∧
        b.stage = .armed ∧
        List.Forall₂ (Cut 0) (Program.make .standard .standard).setUpFrames sent ∧
        b.link.exchanges = (sent.flatten.map (Exchange.sent · (.ok ()))).reverse ++
          [.received 1 (.error (.timeout 0)), .sent [0x81] (.ok ())] := by
  have steady : Link.Steady 0 interrupted.link.link := Script.steady _
  have willing : Link.Willing interrupted.link.link := Script.willing rfl
  exact ⟨steady, willing,
    (start_sends_setUpFrames (Program.make .standard .standard) interrupted).1 rfl 0 steady willing⟩

end Analyser

end LogicCapture
