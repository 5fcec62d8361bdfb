import LogicCapture.Proofs.Serial.Transfers
import LogicCapture.Proofs.Session.Agreement
import LogicCapture.Proofs.Session.Transfers
import LogicCapture.Serial.Discovery

/-!
# Connecting to the right port

Connecting decides on a port, from the list of ports alone, and only then opens it
and probes what is behind it. `Host.choice` is that decision. What it depends on is
which descriptors answer to the wanted name, and how many, so that the order of the
list does not matter. Whatever the opened port does, nothing but the commands of the
probe is ever written to it.
-/

namespace LogicCapture.Serial

/-! ## Descriptors that answer to a name -/

/-- The product text starts with the wanted name; without a wanted name, with the
default one, or else there is no text and the bridge is of a kind that analysers are
built with. An absent text counts as empty. -/
def UsbIdentity.Answers (name? : Option String) (usb : UsbIdentity) : Prop :=
  (name?.getD defaultName).toList <+: (usb.productText.getD "").toList ∨
    name? = none ∧ usb.productText.getD "" = "" ∧ (usb.vendor, usb.product) ∈ bridges

/-- The port is on the USB, and its identity there answers to the wanted name. -/
def Descriptor.Answers (name? : Option String) (d : Descriptor) : Prop :=
  ∃ usb, d.usb = some usb ∧ usb.Answers name?

theorem UsbIdentity.belongs_iff {name? : Option String} {usb : UsbIdentity} :
    usb.belongs name? = true ↔ usb.Answers name? := by
  rw [belongs, Bool.or_eq_true, String.startsWith_string_iff, Bool.and_eq_true, Bool.and_eq_true,
    Option.isNone_iff_eq_none, List.contains_iff_mem, String.isEmpty_iff, and_assoc,
    and_comm (a := (usb.vendor, usb.product) ∈ bridges)]
  rfl

namespace Descriptor

variable {name? : Option String} {d : Descriptor} {device : Device}

theorem device?_of_usb {usb : UsbIdentity} (known : d.usb = some usb) : d.device? name? =
    if usb.belongs name? then some ⟨usb.productText.getD "", d.path, usb.serial⟩ else none := by
  rw [device?, known]

theorem isSome_device?_iff : (d.device? name?).isSome ↔ d.Answers name? := by
  cases known : d.usb with
  | none =>
    rw [device?, known, Answers, known]
    exact ⟨nofun, nofun⟩
  | some usb =>
    rw [device?_of_usb known, Option.isSome_ite, UsbIdentity.belongs_iff, Answers, known]
    constructor
    · exact fun answers => ⟨usb, rfl, answers⟩
    · intro ⟨usb', same, answers⟩
      exact Option.some.inj same ▸ answers

instance : DecidablePred (Descriptor.Answers name?) := fun _ =>
  decidable_of_iff _ isSome_device?_iff

theorem path_of_device? (found : d.device? name? = some device) : device.path = d.path := by
  unfold device? at found
  split at found
  · split at found
    · cases found
      rfl
    · cases found
  · cases found

end Descriptor

/-! ## The decision -/

namespace Host

variable {name? path? : Option String} {path : String} {settings : LinkSettings}
  {descriptors : List Descriptor} {h : Host}

/-- The analysers among the ports of a list. -/
def analysers (name? : Option String) (descriptors : List Descriptor) : List Device :=
  descriptors.filterMap (Descriptor.device? name?)

/-- The port to open, given the analysers that were found. -/
def choice (name? path? : Option String) (found : List Device) : Except ConnectError String :=
  match path? with
  | some path => if found.any (·.path == path) then .ok path else .error (.invalidPort path)
  | none =>
    match found with
    | [] => .error (.notFound (name?.getD defaultName))
    | [device] => .ok device.path
    | _ => .error (.ambiguous (name?.getD defaultName) found.length)

theorem length_analysers : (analysers name? descriptors).length =
    descriptors.countP (Descriptor.Answers name?) := by
  rw [analysers, List.length_filterMap_eq_countP]
  refine List.countP_congr fun d _ => ?_
  rw [Descriptor.isSome_device?_iff, decide_eq_true_iff]

theorem any_path_analysers : (analysers name? descriptors).any (·.path == path) = true ↔
    ∃ d ∈ descriptors, d.path = path ∧ d.Answers name? := by
  rw [List.any_eq_true]
  constructor
  · intro ⟨device, mem, same⟩
    obtain ⟨d, listed, is⟩ := List.mem_filterMap.1 mem
    refine ⟨d, listed, ?_, Descriptor.isSome_device?_iff.1 (is ▸ rfl)⟩
    rw [← Descriptor.path_of_device? is, beq_iff_eq.1 same]
  · intro ⟨d, listed, same, answers⟩
    obtain ⟨device, is⟩ := Option.isSome_iff_exists.1 (Descriptor.isSome_device?_iff.2 answers)
    refine ⟨device, List.mem_filterMap.2 ⟨d, listed, is⟩, beq_iff_eq.2 ?_⟩
    rw [Descriptor.path_of_device? is, same]

/-- The line in the log that tells of the decision. -/
def choiceLine (name? path? : Option String) (found : List Device) : LogLine :=
  match path? with
  | some path => .connecting path
  | none => .devicesFound found.length (name?.getD defaultName)

/-- The host once it has listed its ports and made its decision. -/
def chosen (name? path? : Option String) (found : List Device) (h : Host) : Host :=
  { h with port := h.port.record .listed, log := choiceLine name? path? found :: h.log }

theorem choosePort_run (listed : h.listing = .ok descriptors) :
    choosePort name? path? h =
      match choice name? path? (analysers name? descriptors) with
      | .ok path => .ok path (chosen name? path? (analysers name? descriptors) h)
      | .error cause => .error cause (chosen name? path? (analysers name? descriptors) h) := by
  obtain ⟨listing, openFault, port, log⟩ := h
  dsimp only at listed
  subst listed
  cases path? with
  | some path =>
    have run : choosePort name? (some path) ⟨.ok descriptors, openFault, port, log⟩ =
        (if (analysers name? descriptors).any (·.path == path) then return path
          else throw (.invalidPort path) : Connecting String)
          (chosen name? (some path) (analysers name? descriptors)
            ⟨.ok descriptors, openFault, port, log⟩) := rfl
    rw [run, choice]
    split
    · rfl
    · rfl
  | none =>
    have run : choosePort name? none ⟨.ok descriptors, openFault, port, log⟩ =
        (match analysers name? descriptors with
          | [] => throw (.notFound (name?.getD defaultName))
          | [device] => return device.path
          | _ => throw (.ambiguous (name?.getD defaultName) (analysers name? descriptors).length) :
          Connecting String) (chosen name? none (analysers name? descriptors)
            ⟨.ok descriptors, openFault, port, log⟩) := rfl
    rw [run]
    generalize analysers name? descriptors = found
    cases found with
    | nil => rfl
    | cons device others => cases others <;> rfl

/-! ## Opening -/

/-- Connecting to a port that was decided on: it is opened, and what is behind it is
probed. -/
def connectTo (path : String) (settings : LinkSettings) : Connecting (Analyser SerialLink) :=
  fun h =>
    let t := openLink path settings h
    match t.result with
    | .error cause => .error (.link cause) t.link
    | .ok link =>
      match Analyser.probe { link, log := t.link.log } with
      | .ok _ analyser => .ok analyser t.link
      | .error cause analyser =>
        .error (.probe cause) { t.link with port := analyser.link.port, log := analyser.log }

theorem connect_eq (name? path? : Option String) (settings : LinkSettings) :
    connect name? path? settings = choosePort name? path? >>= (connectTo · settings) := by
  refine congrArg (choosePort name? path? >>= ·) (funext fun path => funext fun h => ?_)
  change (match (openLink path settings h).result with
    | .error cause => throw (.link cause)
    | .ok link =>
      match Analyser.probe { link, log := (openLink path settings h).link.log } with
      | .ok _ analyser => return analyser
      | .error cause analyser => do
        set { (openLink path settings h).link with
          port := analyser.link.port, log := analyser.log }
        throw (.probe cause) : Connecting (Analyser SerialLink)) (openLink path settings h).link = _
  rw [connectTo]
  generalize openLink path settings h = t
  obtain ⟨result, host, accepted⟩ := t
  cases result with
  | error cause => rfl
  | ok link =>
    dsimp only
    cases Analyser.probe { link, log := host.log } <;> rfl

theorem connect_run (listed : h.listing = .ok descriptors) :
    connect name? path? settings h =
      match choice name? path? (analysers name? descriptors) with
      | .ok path => connectTo path settings (chosen name? path? (analysers name? descriptors) h)
      | .error cause => .error cause (chosen name? path? (analysers name? descriptors) h) := by
  rw [connect_eq]
  change EStateM.bind (choosePort name? path?) (connectTo · settings) h = _
  rw [EStateM.bind, choosePort_run listed]
  cases choice name? path? (analysers name? descriptors) <;> rfl

/-! ## What is done with the opened port -/

/-- The commands of a probe. -/
def probeCommands : List UInt8 :=
  [Wire.Command.readVersion.code, Wire.Command.readGeometry.code]

theorem probe_transfers (a : Analyser SerialLink) :
    ∃ bytes, bytes <+: probeCommands ∧
      Port.Transfers a.link.port (Session.after Analyser.probe a).link.port bytes ∧
      ∀ b, Analyser.probe a = .ok () b → bytes = probeCommands := by
  -- the same probe with a record tells which transfers these are
  let recorded : Analyser (Recorded SerialLink) :=
    ⟨⟨a.link, []⟩, a.version, a.geometry, a.stage, a.log⟩
  have results := (Analyser.agree_corresponds Link.congruence_recorded).probe recorded a
    ⟨rfl, rfl, rfl, rfl⟩
  generalize run : Analyser.probe recorded = result at results
  generalize run' : Analyser.probe a = result' at results
  cases results with
  | @ok b b' value alike =>
    obtain ⟨made, extended, follows⟩ := (Analyser.probe_ends recorded).ok run
    obtain ⟨bytes, start, transfers, all⟩ := SerialLink.follows_transfers follows extended.replayed
    rw [alike.link] at transfers
    exact ⟨bytes, start, Session.after_of_ok run' ▸ transfers, fun _ _ => all rfl⟩
  | @error b b' error alike =>
    obtain ⟨made, extended, stop, follows⟩ := (Analyser.probe_ends recorded).error run
    obtain ⟨bytes, start, transfers, -⟩ := SerialLink.follows_transfers follows extended.replayed
    rw [alike.link] at transfers
    exact ⟨bytes, start, Session.after_of_error run' ▸ transfers, nofun⟩

/-- How connecting ends, and the port as it is left. -/
def outcome : EStateM.Result ConnectError Host (Analyser SerialLink) →
    Except ConnectError (Analyser SerialLink) × Port
  | .ok analyser _ => (.ok analyser, analyser.link.port)
  | .error cause after => (.error cause, after.port)

/-- The port was opened. After that it was only emptied and transferred over, and it took
nothing but commands of the probe, all of them if it went well. -/
structure Opens (path : String) (settings : LinkSettings) (made : List Event)
    (result : Except ConnectError (Analyser SerialLink)) : Prop where
  events : ∃ rest, made = .opened path settings.baudRate settings.timeout :: rest ∧
    ∀ e ∈ rest, e = .cleared ∨ e.IsTransfer
  sent : made.flatMap Event.bytes <+: probeCommands
  sent_all : ∀ a, result = .ok a → made.flatMap Event.bytes = probeCommands
  fails : ∀ cause, result = .error cause →
    (∃ c, cause = .link c) ∨ ∃ c, cause = .probe c

theorem openLink_run (path : String) (settings : LinkSettings) (h : Host) :
    ∃ emptied, (∀ e ∈ emptied, e = Event.cleared) ∧
      (openLink path settings h).link.port.events =
        emptied ++ .opened path settings.baudRate settings.timeout :: h.port.events ∧
      ∀ link, (openLink path settings h).result = .ok link →
        link.port = (openLink path settings h).link.port := by
  unfold openLink
  cases h.openFault with
  | some text => exact ⟨[], nofun, rfl, nofun⟩
  | none =>
    have cleared (p : Port) : p.clear.2.events = .cleared :: p.events := by
      unfold Port.clear
      split <;> rfl
    refine ⟨[.cleared], fun e mem => List.mem_singleton.1 mem, cleared _, fun link opened => ?_⟩
    dsimp only at opened ⊢
    cases result : (SerialLink.clear ⟨h.port.record
        (.opened path settings.baudRate settings.timeout), settings⟩).result with
    | ok value =>
      rw [result] at opened
      cases opened
      rfl
    | error cause =>
      rw [result] at opened
      cases opened

theorem connectTo_opens (path : String) (settings : LinkSettings) (h : Host) :
    ∃ made, (outcome (connectTo path settings h)).2.events = made.reverse ++ h.port.events ∧
      Opens path settings made (outcome (connectTo path settings h)).1 := by
  obtain ⟨emptied, clears, events, same⟩ := openLink_run path settings h
  have nothing : emptied.reverse.flatMap Event.bytes = [] := by
    refine List.flatMap_eq_nil_iff.2 fun e mem => ?_
    rw [clears e (List.mem_reverse.1 mem)]
    rfl
  have emptied_first : ∀ e ∈ emptied.reverse, e = .cleared ∨ e.IsTransfer := fun e mem =>
    .inl (clears e (List.mem_reverse.1 mem))
  unfold connectTo
  dsimp only
  generalize openLink path settings h = t at events same
  cases opened : t.result with
  | error cause =>
    refine ⟨.opened path settings.baudRate settings.timeout :: emptied.reverse, ?_,
      ⟨_, rfl, emptied_first⟩, ?_, nofun, ?_⟩
    · rw [List.reverse_cons, List.reverse_reverse, List.append_assoc]
      exact events
    · rw [List.flatMap_cons, nothing]
      exact List.nil_prefix
    · intro _ failed
      cases failed
      exact .inl ⟨cause, rfl⟩
  | ok link =>
    obtain ⟨bytes, start, ⟨-, made, further, transfers, rfl⟩, all⟩ :=
      probe_transfers { link, log := t.link.log }
    rw [same link opened, events] at further
    let whole := Event.opened path settings.baudRate settings.timeout ::
      (emptied.reverse ++ made.reverse)
    have in_order : whole.reverse ++ h.port.events =
        made ++ (emptied ++ .opened path settings.baudRate settings.timeout :: h.port.events) := by
      rw [List.reverse_cons, List.reverse_append, List.reverse_reverse, List.reverse_reverse,
        List.append_assoc, List.append_assoc, List.singleton_append]
    have sent : whole.flatMap Event.bytes = made.reverse.flatMap Event.bytes := by
      rw [List.flatMap_cons, List.flatMap_append, nothing]
      rfl
    have behind : ∀ e ∈ emptied.reverse ++ made.reverse, e = .cleared ∨ e.IsTransfer :=
      List.forall_mem_append.2 ⟨emptied_first, fun e mem =>
        .inr (transfers e (List.mem_reverse.1 mem))⟩
    unfold Session.after at further
    dsimp only
    generalize Analyser.probe { link, log := t.link.log } = probed at further all
    cases probed with
    | ok value analyser =>
      refine ⟨whole, further.trans in_order.symm, ⟨_, rfl, behind⟩, sent ▸ start, ?_, nofun⟩
      exact fun _ _ => sent.trans (all analyser rfl)
    | error cause analyser =>
      refine ⟨whole, further.trans in_order.symm, ⟨_, rfl, behind⟩, sent ▸ start, nofun, ?_⟩
      intro _ failed
      cases failed
      exact .inr ⟨cause, rfl⟩

/-! ## The right port -/

/-- With a wanted port the decision is for that one if an analyser is there. -/
theorem choice_asked (name? : Option String) (path : String) (descriptors : List Descriptor) :
    choice name? (some path) (analysers name? descriptors) = .ok path ∧
        (∃ d ∈ descriptors, d.path = path ∧ d.Answers name?) ∨
      choice name? (some path) (analysers name? descriptors) = .error (.invalidPort path) ∧
        ¬ ∃ d ∈ descriptors, d.path = path ∧ d.Answers name? := by
  unfold choice
  dsimp only
  split
  · next there => exact .inl ⟨rfl, any_path_analysers.1 there⟩
  · next absent => exact .inr ⟨rfl, fun there => absent (any_path_analysers.2 there)⟩

/-- Without a wanted port it is for the only analyser there is. -/
theorem choice_unasked (name? : Option String) (descriptors : List Descriptor) :
    (∃ d ∈ descriptors, choice name? none (analysers name? descriptors) = .ok d.path ∧
        d.Answers name? ∧ descriptors.countP (Descriptor.Answers name?) = 1) ∨
      choice name? none (analysers name? descriptors) =
          .error (.notFound (name?.getD defaultName)) ∧
        descriptors.countP (Descriptor.Answers name?) = 0 ∨
      choice name? none (analysers name? descriptors) =
          .error (.ambiguous (name?.getD defaultName)
            (descriptors.countP (Descriptor.Answers name?))) ∧
        2 ≤ descriptors.countP (Descriptor.Answers name?) := by
  rw [← length_analysers]
  cases found : analysers name? descriptors with
  | nil => exact .inr (.inl ⟨rfl, rfl⟩)
  | cons device others =>
    cases others with
    | nil =>
      have mem : device ∈ analysers name? descriptors := found ▸ List.mem_singleton_self device
      obtain ⟨d, listed, is⟩ := List.mem_filterMap.1 mem
      refine .inl ⟨d, listed, ?_, Descriptor.isSome_device?_iff.1 (is ▸ rfl), rfl⟩
      exact congrArg _ (Descriptor.path_of_device? is)
    | cons device' others => exact .inr (.inr ⟨rfl, Nat.le_add_left 2 others.length⟩)

/-- The order of the analysers found makes no difference to the decision. -/
theorem choice_perm {found found' : List Device} (same : found.Perm found') :
    choice name? path? found = choice name? path? found' := by
  cases path? with
  | some path =>
    have any : found.any (·.path == path) = found'.any (·.path == path) := same.any_eq
    rw [choice, choice, any]
  | none =>
    have length := same.length_eq
    rcases found with _ | ⟨device, _ | ⟨device', others⟩⟩
    · rw [same.nil_eq]
    · rw [List.singleton_perm.1 same]
    · rcases found' with _ | ⟨other, _ | ⟨other', others'⟩⟩
      · cases length
      · cases length
      · exact congrArg (fun n => Except.error (ConnectError.ambiguous _ n)) length

theorem choiceLine_perm {found found' : List Device} (same : found.Perm found') :
    choiceLine name? path? found = choiceLine name? path? found' := by
  cases path? with
  | some path => rfl
  | none => exact congrArg (LogLine.devicesFound · _) same.length_eq

/-- Once the port is decided on, the list of ports does not matter. -/
theorem outcome_connectTo_listing (path : String) (settings : LinkSettings) (h : Host)
    (listing : Except String (List Descriptor)) :
    outcome (connectTo path settings { h with listing }) = outcome (connectTo path settings h) := by
  unfold connectTo openLink
  cases h.openFault with
  | some text => rfl
  | none =>
    dsimp only
    split
    · rfl
    · next link _ => cases Analyser.probe { link, log := h.log } <;> rfl

/-- What was done after the ports were listed, and how connecting ended: one port was
opened at most, and that one was right. -/
structure ConnectsRight (name? path? : Option String) (settings : LinkSettings)
    (descriptors : List Descriptor) (made : List Event)
    (result : Except ConnectError (Analyser SerialLink)) : Prop where
  opens : made = [] ∨ ∃ d ∈ descriptors, d.Answers name? ∧ Opens d.path settings made result ∧
    ∀ path, path? = some path → d.path = path
  unasked : path? = none →
    let count := descriptors.countP (Descriptor.Answers name?)
    (made ≠ [] ↔ count = 1) ∧
      (result = .error (.notFound (name?.getD defaultName)) ↔ count = 0) ∧
      ∀ n, result = .error (.ambiguous (name?.getD defaultName) n) ↔ n = count ∧ 2 ≤ count
  asked : ∀ path, path? = some path →
    (made ≠ [] ↔ ∃ d ∈ descriptors, d.path = path ∧ d.Answers name?) ∧
      (result = .error (.invalidPort path) ↔
        ¬ ∃ d ∈ descriptors, d.path = path ∧ d.Answers name?)

section Opens

variable {made : List Event} {result : Except ConnectError (Analyser SerialLink)}

theorem Opens.ne_nil (opens : Opens path settings made result) : made ≠ [] := by
  obtain ⟨rest, rfl, -⟩ := opens.events
  exact List.cons_ne_nil _ _

/-- An opened port may fail, but was not refused. -/
theorem Opens.not_refused (opens : Opens path settings made result) :
    (∀ name, result ≠ .error (.notFound name)) ∧
      (∀ name n, result ≠ .error (.ambiguous name n)) ∧
      ∀ path', result ≠ .error (.invalidPort path') := by
  refine ⟨fun name refused => ?_, fun name n refused => ?_, fun path' refused => ?_⟩ <;>
    rcases opens.fails _ refused with ⟨c, other⟩ | ⟨c, other⟩ <;> cases other

theorem connectsRight_asked (opens : Opens path settings made result)
    (answers : ∃ d ∈ descriptors, d.path = path ∧ d.Answers name?) :
    ConnectsRight name? (some path) settings descriptors made result where
  opens := by
    obtain ⟨d, listed, rfl, answers⟩ := answers
    exact .inr ⟨d, listed, answers, opens, fun _ same => Option.some.inj same⟩
  unasked := nofun
  asked := by
    intro _ same
    cases same
    exact ⟨iff_of_true opens.ne_nil answers,
      iff_of_false (opens.not_refused.2.2 path) (not_not_intro answers)⟩

theorem connectsRight_unasked {d : Descriptor} (listed : d ∈ descriptors)
    (answers : d.Answers name?) (opens : Opens d.path settings made result)
    (one : descriptors.countP (Descriptor.Answers name?) = 1) :
    ConnectsRight name? none settings descriptors made result where
  opens := .inr ⟨d, listed, answers, opens, nofun⟩
  unasked := by
    intro _
    rw [one]
    refine ⟨iff_of_true opens.ne_nil rfl, iff_of_false (opens.not_refused.1 _) Nat.one_ne_zero,
      fun n => iff_of_false (opens.not_refused.2.1 _ n) ?_⟩
    exact fun ⟨_, several⟩ => absurd several (by decide)
  asked := nofun

theorem connectsRight_invalid
    (absent : ¬ ∃ d ∈ descriptors, d.path = path ∧ d.Answers name?) :
    ConnectsRight name? (some path) settings descriptors [] (.error (.invalidPort path)) where
  opens := .inl rfl
  unasked := nofun
  asked := by
    intro _ same
    cases same
    exact ⟨iff_of_false (not_not_intro rfl) absent, iff_of_true rfl absent⟩

theorem connectsRight_notFound
    (none_there : descriptors.countP (Descriptor.Answers name?) = 0) :
    ConnectsRight name? none settings descriptors []
      (.error (.notFound (name?.getD defaultName))) where
  opens := .inl rfl
  unasked := by
    intro _
    rw [none_there]
    refine ⟨iff_of_false (not_not_intro rfl) Nat.zero_ne_one, iff_of_true rfl rfl,
      fun n => iff_of_false nofun ?_⟩
    exact fun ⟨_, several⟩ => absurd several (by decide)
  asked := nofun

theorem connectsRight_ambiguous
    (several : 2 ≤ descriptors.countP (Descriptor.Answers name?)) :
    ConnectsRight name? none settings descriptors []
      (.error (.ambiguous (name?.getD defaultName)
        (descriptors.countP (Descriptor.Answers name?)))) where
  opens := .inl rfl
  unasked := by
    intro _
    refine ⟨iff_of_false (not_not_intro rfl) (by omega), iff_of_false nofun (by omega),
      fun n => ⟨fun same => ?_, fun ⟨same, _⟩ => same ▸ rfl⟩⟩
    cases same
    exact ⟨rfl, several⟩
  asked := nofun

end Opens

theorem connectsRight (listed : h.listing = .ok descriptors) :
    ∃ made, (outcome (connect name? path? settings h)).2.events =
        made.reverse ++ .listed :: h.port.events ∧
      ConnectsRight name? path? settings descriptors made
        (outcome (connect name? path? settings h)).1 := by
  rw [connect_run listed]
  cases path? with
  | some path =>
    rcases choice_asked name? path descriptors with ⟨chosen, answers⟩ | ⟨chosen, absent⟩
    · rw [chosen]
      obtain ⟨made, events, opens⟩ := connectTo_opens path settings _
      exact ⟨made, events, connectsRight_asked opens answers⟩
    · rw [chosen]
      exact ⟨[], rfl, connectsRight_invalid absent⟩
  | none =>
    rcases choice_unasked name? descriptors with
      ⟨d, mem, chosen, answers, one⟩ | ⟨chosen, none_there⟩ | ⟨chosen, several⟩
    · rw [chosen]
      obtain ⟨made, events, opens⟩ := connectTo_opens d.path settings _
      exact ⟨made, events, connectsRight_unasked mem answers opens one⟩
    · rw [chosen]
      exact ⟨[], rfl, connectsRight_notFound none_there⟩
    · rw [chosen]
      exact ⟨[], rfl, connectsRight_ambiguous several⟩

/-- The order of the list makes no difference. -/
theorem outcome_connect_perm {descriptors' : List Descriptor}
    (same : descriptors.Perm descriptors') :
    outcome (connect name? path? settings { h with listing := .ok descriptors' }) =
      outcome (connect name? path? settings { h with listing := .ok descriptors }) := by
  have found : (analysers name? descriptors).Perm (analysers name? descriptors') :=
    same.filterMap _
  rw [connect_run rfl, connect_run rfl, choice_perm found]
  cases choice name? path? (analysers name? descriptors') with
  | error cause => rfl
  | ok path =>
    have with_list := outcome_connectTo_listing path settings
      (chosen name? path? (analysers name? descriptors') h)
    rw [chosen, chosen, choiceLine_perm found]
    exact (with_list (.ok descriptors')).trans (with_list (.ok descriptors)).symm

/-- Connecting opens the right port. For every list of ports, whatever name or port is
wanted and whatever the port does once it is opened: one port at most is opened, a port
whose descriptor answers to the name and which is the wanted one, if one is wanted. With
no port wanted it is opened if and only if one descriptor answers, and otherwise the
error tells how many do. What is written to it is a prefix of the two commands of a probe.
The order of the list makes no difference. -/
theorem connect_opens_right_port (name? path? : Option String) (settings : LinkSettings)
    (descriptors : List Descriptor) (h : Host) :
    let connected := fun listed : List Descriptor =>
      outcome (connect name? path? settings { h with listing := .ok listed })
    (∃ made, (connected descriptors).2.events = made.reverse ++ .listed :: h.port.events ∧
      ConnectsRight name? path? settings descriptors made (connected descriptors).1) ∧
      ∀ descriptors', descriptors.Perm descriptors' →
        connected descriptors' = connected descriptors :=
  ⟨connectsRight rfl, fun _ same => outcome_connect_perm same⟩

end Host

end LogicCapture.Serial
