import LogicCapture.Proofs.Session.Mismatches
import LogicCapture.Proofs.Session.Stages

/-!
# What a probe accepts

A probe believes nothing that the analyser says before it has checked it: the two
replies by their lengths, the geometry by its key and then dimension by dimension,
and it fails with the first check that fails. `Probes` tells the outcome from the
transfers alone, and `probe_exact` that a probe comes out so. The geometry it ends
with stays for as long as its handle is used, so that programs made for it are
never refused later on.
-/

namespace LogicCapture

/-! ## Dimensions in order -/

namespace Shape

/-- The dimension is one that engines are built with. -/
def Admits (s : Shape) : Fault → Prop
  | .channels => 2 ≤ s.channels ∧ s.channels ≤ 32 ∧ s.channels % 2 = 0
  | .stepSlots => 1 ≤ s.stepSlots ∧ s.stepSlots ≤ 32
  | .patternSlots => s.patternSlots = 2 ∨ s.patternSlots = 4
  | .counterBits => s.counterBits = 16

instance (s : Shape) : (dimension : Fault) → Decidable (s.Admits dimension)
  | .channels =>
    inferInstanceAs (Decidable (2 ≤ s.channels ∧ s.channels ≤ 32 ∧ s.channels % 2 = 0))
  | .stepSlots => inferInstanceAs (Decidable (1 ≤ s.stepSlots ∧ s.stepSlots ≤ 32))
  | .patternSlots => inferInstanceAs (Decidable (s.patternSlots = 2 ∨ s.patternSlots = 4))
  | .counterBits => inferInstanceAs (Decidable (s.counterBits = 16))

/-- The dimensions as they are looked at, one after the other. -/
def Fault.order : List Fault := [.channels, .stepSlots, .patternSlots, .counterBits]

theorem Fault.mem_order (fault : Fault) : fault ∈ order := by
  cases fault <;> decide

/-- Of the dimensions no engine has, this one is looked at first. -/
def FirstFault (s : Shape) (fault : Fault) : Prop :=
  ∃ before after, Fault.order = before ++ fault :: after ∧
    (∀ dimension ∈ before, s.Admits dimension) ∧ ¬ s.Admits fault

variable {s : Shape} {fault : Fault}

theorem fault?_eq_find? (s : Shape) :
    s.fault? = Fault.order.find? fun dimension => ¬ s.Admits dimension := by
  have channels : (s.channels < 2 ∨ 32 < s.channels ∨ s.channels % 2 ≠ 0) ↔
      ¬ s.Admits .channels := by
    unfold Admits
    omega
  have stepSlots : (s.stepSlots < 1 ∨ 32 < s.stepSlots) ↔ ¬ s.Admits .stepSlots := by
    unfold Admits
    omega
  have patternSlots : (s.patternSlots ≠ 2 ∧ s.patternSlots ≠ 4) ↔ ¬ s.Admits .patternSlots := by
    unfold Admits
    omega
  have counterBits : s.counterBits ≠ 16 ↔ ¬ s.Admits .counterBits := Iff.rfl
  rw [fault?, Fault.order]
  simp only [channels, stepSlots, patternSlots, counterBits, List.find?_cons, List.find?_nil]
  by_cases s.Admits .channels <;> by_cases s.Admits .stepSlots <;>
    by_cases s.Admits .patternSlots <;> by_cases s.Admits .counterBits <;> simp [*]

theorem fault?_eq_some_iff : s.fault? = some fault ↔ s.FirstFault fault := by
  rw [fault?_eq_find?, List.find?_eq_some_iff_append, FirstFault]
  simp only [decide_not, Bool.not_not, Bool.not_eq_true', decide_eq_true_eq,
    decide_eq_false_iff_not]
  constructor
  · rintro ⟨faulty, before, after, order, admitted⟩
    exact ⟨before, after, order, admitted, faulty⟩
  · rintro ⟨before, after, order, admitted, faulty⟩
    exact ⟨faulty, before, after, order, admitted⟩

theorem fault?_eq_none_iff_admits : s.fault? = none ↔ ∀ dimension, s.Admits dimension := by
  rw [fault?_eq_find?, List.find?_eq_none]
  simp only [decide_eq_true_eq, not_not]
  exact ⟨fun admitted dimension => admitted dimension dimension.mem_order,
    fun admitted dimension _ => admitted dimension⟩

theorem exists_firstFault (s : Shape) :
    (∃ fault, s.FirstFault fault) ∨ ∀ dimension, s.Admits dimension := by
  cases found : s.fault? with
  | some fault => exact .inl ⟨fault, fault?_eq_some_iff.1 found⟩
  | none => exact .inr (fault?_eq_none_iff_admits.1 found)

end Shape

theorem Geometry.ofShape_of_fault {shape : Shape} {fault : Shape.Fault}
    (faulty : shape.fault? = some fault) : ofShape shape = .error fault := by
  unfold ofShape
  split
  · next found other =>
    cases other.symm.trans faulty
    rfl
  · next sound => cases sound.symm.trans faulty

theorem Geometry.ofShape_of_sound {shape : Shape} (sound : shape.fault? = none) :
    ofShape shape = .ok ⟨shape, sound⟩ := by
  unfold ofShape
  split
  · next fault faulty => cases faulty.symm.trans sound
  · rfl

/-! ## What a request comes to -/

/-- A link that is sent the frame, and then asked for so many bytes, gives this
reply or fails so, and is left in the state named last. A reply of another length
is a failure as well. -/
inductive Link.Answers {σ : Type} [Link σ] (link : σ) (frame : List UInt8) (asked : Nat) :
    Except LinkError (List UInt8) → σ → Prop
  | refused {cause : LinkError} : (send frame link).result = .error cause →
    Answers link frame asked (.error cause) (send frame link).link
  | silent {cause : LinkError} : (send frame link).result = .ok () →
    (receive asked (send frame link).link).result = .error cause →
    Answers link frame asked (.error cause) (receive asked (send frame link).link).link
  | miscounted {reply : List UInt8} : (send frame link).result = .ok () →
    (receive asked (send frame link).link).result = .ok reply → reply.length ≠ asked →
    Answers link frame asked (.error (.shortRead asked reply.length))
      (receive asked (send frame link).link).link
  | replied {reply : List UInt8} : (send frame link).result = .ok () →
    (receive asked (send frame link).link).result = .ok reply → reply.length = asked →
    Answers link frame asked (.ok reply) (receive asked (send frame link).link).link

namespace Link

variable {σ : Type} [Link σ] {link t : σ} {frame reply : List UInt8} {asked : Nat}

theorem Answers.length (answers : Answers link frame asked (.ok reply) t) :
    reply.length = asked := by
  cases answers with
  | replied _ _ length => exact length

theorem exists_answers (link : σ) (frame : List UInt8) (asked : Nat) :
    ∃ outcome t, Answers link frame asked outcome t := by
  cases taken : (send frame link).result with
  | error cause => exact ⟨_, _, .refused taken⟩
  | ok =>
    cases given : (receive asked (send frame link).link).result with
    | error cause => exact ⟨_, _, .silent taken given⟩
    | ok reply =>
      by_cases length : reply.length = asked
      · exact ⟨_, _, .replied taken given length⟩
      · exact ⟨_, _, .miscounted taken given length⟩

end Link

namespace Analyser

open Session

variable {σ : Type} [Link σ] {a : Analyser σ} {t : σ} {frame : List UInt8} {asked : Nat}

theorem request_of_replied {reply : List UInt8} (phase : Phase)
    (replied : Link.Answers a.link frame asked (.ok reply) t) :
    ∃ log, request phase frame asked a = .ok reply { a with link := t, log } := by
  cases replied with
  | replied taken given length =>
    rw [request, bind_of_ok (during_of_ok taken), bind_of_ok (during_of_ok given)]
    dsimp only
    rw [if_neg (not_not_intro length)]
    exact ⟨_, rfl⟩

theorem request_of_fails {cause : LinkError} (phase : Phase)
    (fails : Link.Answers a.link frame asked (.error cause) t) :
    ∃ b, request phase frame asked a = .error (.link phase cause) b := by
  cases fails with
  | refused failed => exact ⟨_, bind_of_error (during_of_error failed)⟩
  | silent taken failed =>
    exact ⟨_, (bind_of_ok (during_of_ok taken)).trans (bind_of_error (during_of_error failed))⟩
  | miscounted taken given short =>
    rw [request, bind_of_ok (during_of_ok taken), bind_of_ok (during_of_ok given)]
    dsimp only
    rw [if_pos short]
    exact ⟨_, rfl⟩

theorem readVersion_of_replied {version : UInt8}
    (replied : Link.Answers a.link [0x82] 1 (.ok [version]) t) :
    ∃ log, readVersion a = .ok version { a with link := t, log } := by
  obtain ⟨log, requested⟩ := request_of_replied .readVersion replied
  exact ⟨log, bind_of_ok requested⟩

theorem readVersion_of_fails {cause : LinkError}
    (fails : Link.Answers a.link [0x82] 1 (.error cause) t) :
    ∃ b, readVersion a = .error (.link .readVersion cause) b := by
  obtain ⟨b, failed⟩ := request_of_fails .readVersion fails
  exact ⟨b, bind_of_error failed⟩

end Analyser

/-! ## What a geometry reply comes to -/

/-- The eight bytes of a geometry reply are of a shape, or they are refused: for
their key, or for the first dimension that no engine has. -/
inductive Describes : List UInt8 → Except AnalyserError Shape → Prop
  | wrongKey {key rest : List UInt8} : key.length = 4 → rest.length = 4 →
    key ≠ [0xA5, 0x5E, 0x12, 0x34] → Describes (key ++ rest) (.error (.badKey key))
  | misshapen {channels steps patterns counters : UInt8} {fault : Shape.Fault} :
    Shape.FirstFault ⟨channels.toNat, steps.toNat, patterns.toNat, counters.toNat⟩ fault →
    Describes [0xA5, 0x5E, 0x12, 0x34, channels, steps, patterns, counters]
      (.error (.trigger (.invalidGeometry
        ⟨channels.toNat, steps.toNat, patterns.toNat, counters.toNat⟩ fault)))
  | sound {channels steps patterns counters : UInt8} :
    (∀ dimension,
      Shape.Admits ⟨channels.toNat, steps.toNat, patterns.toNat, counters.toNat⟩ dimension) →
    Describes [0xA5, 0x5E, 0x12, 0x34, channels, steps, patterns, counters]
      (.ok ⟨channels.toNat, steps.toNat, patterns.toNat, counters.toNat⟩)

theorem exists_describes {reply : List UInt8} (length : reply.length = 8) :
    ∃ outcome, Describes reply outcome := by
  match reply, length with
  | [k₀, k₁, k₂, k₃, channels, steps, patterns, counters], _ =>
    by_cases key : [k₀, k₁, k₂, k₃] = [0xA5, 0x5E, 0x12, 0x34]
    · cases key
      rcases Shape.exists_firstFault
        ⟨channels.toNat, steps.toNat, patterns.toNat, counters.toNat⟩ with ⟨fault, first⟩ | admitted
      · exact ⟨_, .misshapen first⟩
      · exact ⟨_, .sound admitted⟩
    · have wrong : Describes ([k₀, k₁, k₂, k₃] ++ [channels, steps, patterns, counters])
          (.error (.badKey [k₀, k₁, k₂, k₃])) := .wrongKey rfl rfl key
      exact ⟨_, wrong⟩

namespace Analyser

theorem geometryOfReply_of_key (channels steps patterns counters : UInt8) :
    geometryOfReply [0xA5, 0x5E, 0x12, 0x34, channels, steps, patterns, counters] =
      (Geometry.make ⟨channels.toNat, steps.toNat, patterns.toNat, counters.toNat⟩).mapError
        .trigger :=
  rfl

variable {reply : List UInt8}

theorem geometryOfReply_of_describes {shape : Shape} (describes : Describes reply (.ok shape)) :
    ∃ geometry : Geometry, geometry.toShape = shape ∧ geometryOfReply reply = .ok geometry := by
  cases describes with
  | sound admitted =>
    have faultless := Shape.fault?_eq_none_iff_admits.2 admitted
    rw [geometryOfReply_of_key, Geometry.make, Geometry.ofShape_of_sound faultless]
    exact ⟨_, rfl, rfl⟩

theorem geometryOfReply_of_refused {error : AnalyserError}
    (refused : Describes reply (.error error)) : geometryOfReply reply = .error error := by
  cases refused with
  | @wrongKey key rest four four' wrong =>
    match key, rest, four, four' with
    | [k₀, k₁, k₂, k₃], [channels, steps, patterns, counters], _, _ => exact if_pos wrong
  | misshapen first =>
    have faulty := Shape.fault?_eq_some_iff.2 first
    rw [geometryOfReply_of_key, Geometry.make, Geometry.ofShape_of_fault faulty]
    rfl

end Analyser

/-! ## What a probe comes to -/

/-- How a probe of the link comes out, by the first check that fails: the transfers
for the version, those for the geometry, the geometry itself. An analyser that
passes is idle, of the version and the shape that it said. -/
inductive Probes {σ : Type} [Link σ] (link : σ) :
    Except AnalyserError (Option UInt8 × Shape × Stage) → Prop
  | noVersion {cause : LinkError} {t : σ} : Link.Answers link [0x82] 1 (.error cause) t →
    Probes link (.error (.link .readVersion cause))
  | noGeometry {version : UInt8} {cause : LinkError} {t u : σ} :
    Link.Answers link [0x82] 1 (.ok [version]) t → Link.Answers t [0x84] 8 (.error cause) u →
    Probes link (.error (.link .readGeometry cause))
  | refused {version : UInt8} {reply : List UInt8} {error : AnalyserError} {t u : σ} :
    Link.Answers link [0x82] 1 (.ok [version]) t → Link.Answers t [0x84] 8 (.ok reply) u →
    Describes reply (.error error) → Probes link (.error error)
  | accepted {version : UInt8} {reply : List UInt8} {shape : Shape} {t u : σ} :
    Link.Answers link [0x82] 1 (.ok [version]) t → Link.Answers t [0x84] 8 (.ok reply) u →
    Describes reply (.ok shape) → Probes link (.ok (some version, shape, .idle))

theorem exists_probes {σ : Type} [Link σ] (link : σ) : ∃ outcome, Probes link outcome := by
  obtain ⟨versionSaid, t, asked⟩ := Link.exists_answers link [0x82] 1
  cases versionSaid with
  | error cause => exact ⟨_, .noVersion asked⟩
  | ok reply =>
    obtain ⟨version, rfl⟩ := List.length_eq_one_iff.1 asked.length
    obtain ⟨geometrySaid, u, asked'⟩ := Link.exists_answers t [0x84] 8
    cases geometrySaid with
    | error cause => exact ⟨_, .noGeometry asked asked'⟩
    | ok reply =>
      obtain ⟨outcome, describes⟩ := exists_describes asked'.length
      cases outcome with
      | error error => exact ⟨_, .refused asked asked' describes⟩
      | ok shape => exact ⟨_, .accepted asked asked' describes⟩

namespace Analyser

open Session

variable {σ : Type}

/-- What whoever probes gets to know: the error, or what the handle shows. -/
def report : EStateM.Result AnalyserError (Analyser σ) Unit →
    Except AnalyserError (Option UInt8 × Shape × Stage)
  | .ok _ a => .ok (a.version, a.geometry.toShape, a.stage)
  | .error error _ => .error error

variable [Link σ] {a : Analyser σ} {t : σ}

theorem readGeometry_of_fails {cause : LinkError}
    (fails : Link.Answers a.link [0x84] 8 (.error cause) t) :
    ∃ b, readGeometry a = .error (.link .readGeometry cause) b := by
  obtain ⟨b, failed⟩ := request_of_fails .readGeometry fails
  exact ⟨b, bind_of_error failed⟩

section Reply

variable {reply : List UInt8} (replied : Link.Answers a.link [0x84] 8 (.ok reply) t)

include replied

theorem readGeometry_of_refused {error : AnalyserError} (refused : Describes reply (.error error)) :
    ∃ b, readGeometry a = .error error b := by
  obtain ⟨log, requested⟩ := request_of_replied .readGeometry replied
  refine ⟨{ a with link := t, log }, (bind_of_ok requested).trans ?_⟩
  rw [geometryOfReply_of_refused refused]
  rfl

theorem readGeometry_of_describes {shape : Shape} (describes : Describes reply (.ok shape)) :
    ∃ (geometry : Geometry) (log : List LogLine), geometry.toShape = shape ∧
      readGeometry a = .ok geometry { a with link := t, log } := by
  obtain ⟨log, requested⟩ := request_of_replied .readGeometry replied
  obtain ⟨geometry, shown, said⟩ := geometryOfReply_of_describes describes
  refine ⟨geometry, log, shown, (bind_of_ok requested).trans ?_⟩
  rw [said]
  rfl

end Reply

/-- Once the version is known, a probe goes on with the geometry. -/
theorem probe_of_replied {version : UInt8}
    (replied : Link.Answers a.link [0x82] 1 (.ok [version]) t) :
    ∃ log, probe a = (do
      let geometry ← readGeometry
      modify fun a => { a with geometry }
      note (.connected version geometry) : Session σ Unit)
        { a with link := t, log, version := some version } := by
  obtain ⟨log, read⟩ := readVersion_of_replied replied
  exact ⟨log, bind_of_ok read⟩

theorem report_of_probes {link : σ} {outcome : Except AnalyserError (Option UInt8 × Shape × Stage)}
    (log : List LogLine) (probes : Probes link outcome) :
    report (probe { link, log }) = outcome := by
  cases probes with
  | noVersion fails =>
    obtain ⟨b, failed⟩ := readVersion_of_fails (a := { link, log }) fails
    rw [probe, bind_of_error failed]
    rfl
  | @noGeometry version cause t u answers fails =>
    obtain ⟨log', run⟩ := probe_of_replied (a := { link, log }) answers
    obtain ⟨b, failed⟩ := readGeometry_of_fails (a := { link := t, version, log := log' }) fails
    rw [run, bind_of_error failed]
    rfl
  | @refused version reply error t u answers replied refused =>
    obtain ⟨log', run⟩ := probe_of_replied (a := { link, log }) answers
    obtain ⟨b, failed⟩ :=
      readGeometry_of_refused (a := { link := t, version, log := log' }) replied refused
    rw [run, bind_of_error failed]
    rfl
  | @accepted version reply shape t u answers replied describes =>
    obtain ⟨log', run⟩ := probe_of_replied (a := { link, log }) answers
    obtain ⟨geometry, _, rfl, read⟩ :=
      readGeometry_of_describes (a := { link := t, version, log := log' }) replied describes
    rw [run, bind_of_ok read]
    rfl

end Analyser

/-! ## Probed handles -/

namespace Handle

open Session Analyser

variable {σ : Type} [Link σ]

/-- A probe comes out as `Probes` tells from the transfers, whatever the link is: there
is just one such outcome, and a reply that is none of an analyser is an error. The
geometry of an analyser that passed stays the same as long as the handle is not
started over, and no call with a program for that geometry is refused as one for
another engine. -/
theorem probe_exact (link : σ) (log : List LogLine) :
    (∀ outcome, report (probe { link, log }) = outcome ↔ Probes link outcome) ∧
    ∀ probed, probe { link, log } = .ok () probed → ∀ h, Since probed h →
      h.analyser.geometry = probed.geometry ∧
      ∀ horizon call, (∀ p ∈ call.program?, p.geometry = probed.geometry) →
        (perform horizon h call).1 ≠ .error (.failed (.trigger .geometryMismatch)) := by
  refine ⟨fun outcome => ⟨?_, report_of_probes log⟩, fun probed _ h since => ?_⟩
  · rintro rfl
    obtain ⟨outcome, probes⟩ := exists_probes link
    rwa [report_of_probes log probes]
  · have known := since.invariant (sessionInvariant_known probed.version probed.geometry) ⟨rfl, rfl⟩
    refine ⟨known.2, fun horizon call fits => perform_noMismatch horizon fun p is => ?_⟩
    exact (fits p is).trans known.2.symm

/-- The analyser that falters is accepted as it is, and may be armed with a program made
for the geometry it said. -/
theorem probe_exact_faltering :
    Probes faltering (.ok (some 7, ⟨2, 1, 2, 16⟩, .idle)) ∧
      probe { link := faltering, log := [] } = .ok () falteringProbed ∧
      (perform glance (idle falteringProbed) (.idle (.arm twoSamples))).1 ≠
        .error (.failed (.trigger .geometryMismatch)) := by
  have probed : probe { link := faltering, log := [] } = .ok () falteringProbed := by
    with_unfolding_all rfl
  obtain ⟨outcomes, later⟩ := probe_exact faltering []
  obtain ⟨-, never_refused⟩ := later falteringProbed probed _ .start
  refine ⟨(outcomes _).1 (by decide +kernel), probed, never_refused glance _ fun p is => ?_⟩
  cases is
  decide +kernel

end Handle

end LogicCapture
