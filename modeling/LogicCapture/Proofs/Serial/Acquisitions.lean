import LogicCapture.Proofs.Serial.Fragments
import LogicCapture.Proofs.Session.Retracing

/-!
# Acquisitions over a port that moves bytes in parts

However a port cuts up what goes over it, an acquisition does not tell the difference, as
long as no transfer takes too long: it comes to what it comes to over a port that moves
every transfer at once. That one says which transfers there are; the link replays them,
and the acquisition retraces its way.
-/

namespace LogicCapture.Serial

open Handle Analyser

/-- The same bytes went to the device, the same ones are still to come, and the settings
are the same. -/
structure SameWire (r : Recorded SerialLink) (l : SerialLink) : Prop where
  written : l.port.written = r.link.port.written
  stream : l.port.stream = r.link.port.stream
  settings : l.settings = r.link.settings

/-- The analyser with all that arrives in one piece, all that is sent taken at once, and a
record kept of the transfers. -/
def atOnce (a : Analyser SerialLink) : Analyser (Recorded SerialLink) where
  link := ⟨{ a.link with port := a.link.port.whole }, []⟩
  version := a.version
  geometry := a.geometry
  stage := a.stage
  log := a.log

theorem beside_atOnce {a : Analyser SerialLink} (fragmenting : a.link.port.Fragmenting) :
    SerialLink.Beside a.link (atOnce a).link.link where
  fragmenting := fragmenting
  whole := Port.whole_whole a.link.port
  stream := (Port.stream_whole a.link.port).symm
  written := rfl
  settings := rfl

/-- Fragmentation is invisible. Over a port that takes and gives bytes in any parts, with
any timeouts of its own in between, an acquisition comes to the same reading or the same
error as over one that moves every transfer at once, and it leaves the same handle. The
device gets the same bytes in the same order, and no byte of its replies is lost or read
twice. This takes that enough bytes arrive for what the acquisition asks for, and that
every transfer ends within the time that the settings allow. -/
theorem fragmentation_invisible {horizon : Horizon} {p : Program} {a : Analyser SerialLink}
    {way : Way} (fragmenting : a.link.port.Fragmenting)
    (enough : (acquire horizon p (.idle (atOnce a)) way).2.analyser.link.asked.sum ≤
      a.link.port.stream.length)
    (prompt : a.link.Prompt (record (acquire horizon p (.idle (atOnce a)) way).2).reverse) :
    (acquire horizon p (.idle a) way).1 = (acquire horizon p (.idle (atOnce a)) way).1 ∧
      Handle.Alike SameWire (acquire horizon p (.idle (atOnce a)) way).2
        (acquire horizon p (.idle a) way).2 := by
  obtain ⟨made, extended, retraced⟩ :=
    acquire_retraces (τ := SerialLink) horizon p way (.idle (atOnce a))
  have exchanges : (record (acquire horizon p (.idle (atOnce a)) way).2).reverse = made := by
    rw [record, extended.exchanges]
    exact (congrArg List.reverse (List.append_nil _)).trans (List.reverse_reverse made)
  rw [Recorded.asked_eq] at enough
  rw [record] at exchanges
  rw [exchanges] at enough
  rw [record, exchanges] at prompt
  obtain ⟨u, replayed, last⟩ := (beside_atOnce fragmenting).replays extended.replayed enough prompt
  have alike : Handle.Alike Link.SameUnit (.idle (atOnce a)) (.idle a) :=
    .idle ⟨⟨a.link.settings.transferUnit, SerialLink.steady _, SerialLink.steady _⟩, rfl, rfl, rfl⟩
  obtain ⟨answers, ended⟩ := retraced (.idle a) u alike replayed
  refine ⟨answers, ended.imp ?_⟩
  rw [ended.analyser.link.2]
  exact ⟨last.written, last.stream, last.settings⟩

/-- An analyser that is done at the third look, over a port that falters in between. -/
def patchy : Analyser SerialLink where
  geometry := twoSamples.geometry
  link :=
    { port :=
        { name := none
          reads := [.bytes [2], .fails ⟨true, "not yet"⟩, .bytes [3], .bytes [], .bytes [4],
            .bytes [0x34], .fails ⟨true, "not yet"⟩, .bytes [0x12, 0xCD], .bytes [0xAB]]
          writes := [.takes 3, .fails ⟨true, "not yet"⟩, .takes 1] }
      settings := {} }

/-- An acquisition on it, all at once. -/
def patchyAtOnce : Except Refusal Answer × Handle (Recorded SerialLink) :=
  acquire ⟨fun _ => 0, 3⟩ twoSamples (.idle (atOnce patchy)) .wait

/-- The three looks and the two samples take nine reads, one of them empty and two timed
out; the first send takes four writes, one of them timed out. -/
theorem fragmentation_invisible_patchy :
    let acquired := acquire ⟨fun _ => 0, 3⟩ twoSamples (.idle patchy) .wait
    patchy.link.port.Fragmenting ∧
      patchyAtOnce.2.analyser.link.asked.sum ≤ patchy.link.port.stream.length ∧
      patchy.link.Prompt (record patchyAtOnce.2).reverse ∧
      acquired.1 = .ok (.reading ⟨[0x1234, 0xABCD], .full, 0⟩) ∧
      Handle.Alike SameWire patchyAtOnce.2 acquired.2 := by
  intro acquired
  have fragmenting : patchy.link.port.Fragmenting := ⟨by decide, by decide, by decide⟩
  have enough : patchyAtOnce.2.analyser.link.asked.sum ≤ patchy.link.port.stream.length := by
    decide +kernel
  have prompt : patchy.link.Prompt (record patchyAtOnce.2).reverse :=
    SerialLink.prompt_of_clock (fun _ _ => (by decide : 0 - 0 < 10000000)) _
  have answered : patchyAtOnce.1 = .ok (.reading ⟨[0x1234, 0xABCD], .full, 0⟩) := by decide +kernel
  obtain ⟨answers, alike⟩ := fragmentation_invisible fragmenting enough prompt
  exact ⟨fragmenting, enough, prompt, answers.trans answered, alike⟩

end LogicCapture.Serial
