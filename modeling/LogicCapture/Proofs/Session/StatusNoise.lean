import LogicCapture.Proofs.Session.Agreement
import LogicCapture.Proofs.Session.Polling

/-!
# Noise in the status bytes

The status of the analyser takes three bits of a byte. Two links whose replies agree in
these bits, `Link.SameStatus`, are polled in the same way: line by line the log is the same,
and so is the result, except that the report of an illegal status shows the whole byte.
-/

namespace LogicCapture

theorem Status.ofByte?_congr {byte byte' : UInt8} (same : byte.toNat % 8 = byte'.toNat % 8) :
    ofByte? byte = ofByte? byte' := by
  rw [← toNat_and_seven, ← toNat_and_seven] at same
  unfold ofByte?
  rw [same]

/-! ## Links that differ in noise -/

/-- Transfers with results that are the same up to `Values`, taken in the same parts, after
which the links are in the relation. -/
inductive SameTransfers {σ τ α β : Type} (rel : σ → τ → Prop) (Values : α → β → Prop) :
    Transfer σ α → Transfer τ β → Prop
  | ok {s : σ} {t : τ} {value : α} {value' : β} (accepted : List Nat) :
    Values value value' → rel s t →
    SameTransfers rel Values ⟨.ok value, s, accepted⟩ ⟨.ok value', t, accepted⟩
  | error {s : σ} {t : τ} (cause : LinkError) (accepted : List Nat) : rel s t →
    SameTransfers rel Values ⟨.error cause, s, accepted⟩ ⟨.error cause, t, accepted⟩

/-- The three bits of each byte that count, as a number. -/
def statusBits (bytes : List UInt8) : List Nat := bytes.map (·.toNat % 8)

theorem length_statusBits (bytes : List UInt8) : (statusBits bytes).length = bytes.length :=
  List.length_map _

/-- Replies of one length, with the same status bits in every byte. -/
def SameBits (reply reply' : List UInt8) : Prop := statusBits reply = statusBits reply'

/-- Links in the relation take the request for the status in the same way, and their
replies to it have the same status bits. -/
structure Link.SameStatus {σ τ : Type} [Link σ] [Link τ] (rel : σ → τ → Prop) : Prop where
  send {s t} : rel s t → SameTransfers rel Eq (Link.send [0x81] s) (Link.send [0x81] t)
  receive {s t} : rel s t → SameTransfers rel SameBits (Link.receive 1 s) (Link.receive 1 t)

/-- The same error, but for the upper bits of an illegal status byte. -/
inductive AnalyserError.Same : AnalyserError → AnalyserError → Prop
  | refl (error : AnalyserError) : Same error error
  | illegal {byte byte' : UInt8} : byte.toNat % 8 = byte'.toNat % 8 →
    Same (.illegalStatus byte) (.illegalStatus byte')

namespace Session

variable {σ τ α β γ δ : Type} {rel : σ → τ → Prop} {Values : α → β → Prop}
  {a : Analyser σ} {b : Analyser τ}

/-- Analysers that are alike down to the log. -/
structure Twins (rel : σ → τ → Prop) (a : Analyser σ) (b : Analyser τ) : Prop
    extends Alike rel a b where
  log : a.log = b.log

/-- Results that are the same up to `Values` and noise, and analysers that are twins. -/
inductive TwinResults (rel : σ → τ → Prop) (Values : α → β → Prop) :
    EStateM.Result AnalyserError (Analyser σ) α →
      EStateM.Result AnalyserError (Analyser τ) β → Prop
  | ok {a : Analyser σ} {b : Analyser τ} {value : α} {value' : β} :
    Values value value' → Twins rel a b → TwinResults rel Values (.ok value a) (.ok value' b)
  | error {a : Analyser σ} {b : Analyser τ} {error error' : AnalyserError} :
    error.Same error' → Twins rel a b → TwinResults rel Values (.error error a) (.error error' b)

theorem TwinResults.bind {x : Session σ α} {y : Session τ β} {f : α → Session σ γ}
    {g : β → Session τ δ} {Values' : γ → δ → Prop} (first : TwinResults rel Values (x a) (y b))
    (second : ∀ value value' a b, Values value value' → Twins rel a b →
      TwinResults rel Values' (f value a) (g value' b)) :
    TwinResults rel Values' ((x >>= f) a) ((y >>= g) b) := by
  generalize left : x a = l at first
  generalize right : y b = r at first
  cases first with
  | ok same twins =>
    rw [bind_of_ok left, bind_of_ok right]
    exact second _ _ _ _ same twins
  | error same twins =>
    rw [bind_of_error left, bind_of_error right]
    exact .error same twins

end Session

namespace Analyser

open Session

variable {σ τ : Type} {rel : σ → τ → Prop} {a : Analyser σ} {b : Analyser τ}

theorem during_twins {α β : Type} {Values : α → β → Prop} (phase : Phase)
    {transfer : σ → Transfer σ α} {transfer' : τ → Transfer τ β} (twins : Twins rel a b)
    (same : SameTransfers rel Values (transfer a.link) (transfer' b.link)) :
    TwinResults rel Values (during phase transfer a) (during phase transfer' b) := by
  unfold during
  generalize transfer a.link = t at same
  generalize transfer' b.link = t' at same
  cases same with
  | ok accepted values links =>
    exact .ok values ⟨⟨links, twins.version, twins.geometry, twins.stage⟩, twins.log ▸ rfl⟩
  | error cause accepted links =>
    exact .error (.refl _) ⟨⟨links, twins.version, twins.geometry, twins.stage⟩, twins.log ▸ rfl⟩

theorem note_twins (line : LogLine) (twins : Twins rel a b) :
    TwinResults rel Eq (note line a) (note line b) :=
  .ok rfl ⟨⟨twins.link, twins.version, twins.geometry, twins.stage⟩,
    congrArg (line :: ·) twins.log⟩

theorem enter_twins (stage : Stage) (twins : Twins rel a b) :
    TwinResults rel Eq (enter stage a) (enter stage b) := by
  have left : enter stage a = .ok () (after (enter stage) a) := rfl
  have right : enter stage b = .ok () (after (enter stage) b) := rfl
  rw [left, right, after_enter, after_enter, twins.stage, twins.log]
  split
  · exact .ok rfl twins
  · exact .ok rfl ⟨⟨twins.link, twins.version, twins.geometry, rfl⟩, rfl⟩

variable [Link σ] [Link τ] (same_status : Link.SameStatus rel)

include same_status

theorem readStatus_twins (twins : Twins rel a b) :
    TwinResults rel Eq (readStatus a) (readStatus b) := by
  have replied : TwinResults rel (fun reply reply' => SameBits reply reply' ∧ reply.length = 1)
      (request .readStatus [0x81] 1 a) (request .readStatus [0x81] 1 b) := by
    refine (during_twins .readStatus twins (same_status.send twins.link)).bind ?_
    intro _ _ a b _ twins
    refine (during_twins .readStatus twins (same_status.receive twins.link)).bind ?_
    intro reply reply' a b bits twins
    have length : reply.length = reply'.length := by
      rw [← length_statusBits reply, bits, length_statusBits]
    rw [length]
    split
    · exact .error (.refl _) twins
    · next fits => exact .ok ⟨bits, length.trans (Decidable.of_not_not fits)⟩ twins
  have said : TwinResults rel (fun byte byte' : UInt8 => byte.toNat % 8 = byte'.toNat % 8)
      (requestByte .readStatus .readStatus a) (requestByte .readStatus .readStatus b) := by
    refine replied.bind ?_
    rintro reply reply' a b ⟨bits, length⟩ twins
    obtain ⟨byte, rfl⟩ := List.length_eq_one_iff.1 length
    obtain ⟨byte', rfl⟩ : ∃ byte', reply' = [byte'] := by
      rw [← List.length_eq_one_iff, ← length_statusBits reply', ← bits]
      rfl
    exact .ok (List.singleton_inj.1 bits) twins
  refine said.bind ?_
  intro byte byte' a b bits twins
  rw [Status.ofByte?_congr bits]
  cases Status.ofByte? byte' with
  | some status => exact .ok rfl twins
  | none => exact .error (.illegal bits) twins

theorem poll_twins (twins : Twins rel a b) : TwinResults rel Eq (poll a) (poll b) := by
  refine (readStatus_twins same_status twins).bind ?_
  rintro status _ a b rfl twins
  split
  · next stage _ =>
    refine (enter_twins stage twins).bind ?_
    exact fun _ _ a b _ twins => .ok rfl twins
  · exact .ok rfl twins

theorem pollUntilDone_twins (limit : Nat) (before : Option Status) (twins : Twins rel a b) :
    TwinResults rel Eq (pollUntilDone limit before a) (pollUntilDone limit before b) := by
  induction limit generalizing before a b with
  | zero => exact .ok rfl twins
  | succ limit ih =>
    refine (poll_twins same_status twins).bind ?_
    rintro status _ a b rfl twins
    -- the same follows whether or not the status is a new one and noted
    have rest {a : Analyser σ} {b : Analyser τ} (twins : Twins rel a b) : TwinResults rel Eq
        ((if status = .done then pure true else pollUntilDone limit (some status)) a)
        ((if status = .done then pure true else pollUntilDone limit (some status)) b) := by
      split
      · exact .ok rfl twins
      · exact ih (some status) twins
    dsimp only
    split
    · exact rest twins
    · refine (note_twins (.status status) twins).bind ?_
      exact fun _ _ a b _ twins => rest twins

end Analyser

end LogicCapture
