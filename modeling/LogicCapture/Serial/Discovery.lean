import LogicCapture.Analyser.Acquisition
import LogicCapture.Serial.Link

/-!
Finding the analyser among the serial ports of a host and connecting to it. A
port belongs to an analyser if its USB product text starts with the analyser's
name. Without a wanted name, an unprogrammed bridge chip of a kind that
analysers are built with will do as well. Connecting opens one port at most: the
one that was asked for, if it belongs to an analyser, or else the only one that
does.
-/

namespace LogicCapture.Serial

/-! ## Ports of a host -/

/-- What a port on the USB says of itself. -/
structure UsbIdentity where
  vendor : Nat
  product : Nat
  serial : Option String
  productText : Option String

/-- An entry of the list of ports; only ports on the USB have an identity. -/
structure Descriptor where
  path : String
  usb : Option UsbIdentity

/-- The serial side of a host: the ports it lists, or its failure to list them,
and how the port behaves that gets opened. -/
structure Host where
  listing : Except String (List Descriptor)
  openFault : Option String := none
  port : Port
  log : List LogLine := []

/-! ## Analysers among them -/

structure Device where
  name : String
  path : String
  serial : Option String

/-- Product text of an analyser's bridge. -/
def defaultName : String := "Fast Logic Analyser"

/-- Vendor and product numbers of the bridges that analysers are built with. -/
def bridges : List (Nat × Nat) := [(0x0403, 0x6010), (0x0403, 0x6014)]

/-- The USB identity is that of an analyser named `name?`; an absent product
text counts as empty. -/
def UsbIdentity.belongs (usb : UsbIdentity) (name? : Option String) : Bool :=
  let text := usb.productText.getD ""
  text.startsWith (name?.getD defaultName) ||
    (name?.isNone && bridges.contains (usb.vendor, usb.product) && text.isEmpty)

/-- The analyser at a port, if there is one. -/
def Descriptor.device? (name? : Option String) (d : Descriptor) : Option Device :=
  match d.usb with
  | some usb =>
    if usb.belongs name? then some ⟨usb.productText.getD "", d.path, usb.serial⟩ else none
  | none => none

inductive ConnectError where
  | link (cause : LinkError)
  /-- The ports could not be listed. -/
  | listing (text : String)
  | invalidPort (path : String)
  | notFound (name : String)
  | ambiguous (name : String) (count : Nat)
  | probe (cause : AnalyserError)

def ConnectError.message : ConnectError → String
  | link cause => s!"Transport error: {cause.message}"
  | listing text => s!"Serial port error: {text}"
  | invalidPort path => s!"Port {path} is not the analyser you're looking for"
  | notFound name =>
    s!"No analyser {name} found. Please connect an analyser or specify the port manually"
  | ambiguous name count => s!"Found {count} analysers named {name}. Please specify the port"
  | probe cause => s!"Analyser did not answer the connection probe: {cause.message}"

/-! ## Connecting -/

/-- An action on a host; its effects outlast a failure. -/
abbrev Connecting := EStateM ConnectError Host

namespace Host

def note (line : LogLine) : Connecting Unit := modify fun h => { h with log := line :: h.log }

/-- Lists the analysers named `name?`. -/
def devices (name? : Option String) : Connecting (List Device) := do
  modify fun h => { h with port := h.port.record .listed }
  match (← get).listing with
  | .ok descriptors => return descriptors.filterMap (Descriptor.device? name?)
  | .error text => throw (.listing text)

/-- The port to open: the wanted one, if it belongs to an analyser, or the only
one that does. -/
def choosePort (name? path? : Option String) : Connecting String := do
  match path? with
  | some path =>
    note (.connecting path)
    if (← devices name?).any (·.path == path) then
      return path
    throw (.invalidPort path)
  | none =>
    let found ← devices name?
    let name := name?.getD defaultName
    note (.devicesFound found.length name)
    match found with
    | [] => throw (.notFound name)
    | [device] => return device.path
    | _ => throw (.ambiguous name found.length)

/-- Opens a port and empties its buffers. -/
def openLink (path : String) (settings : LinkSettings) (h : Host) : Transfer Host SerialLink :=
  let port := h.port.record (.opened path settings.baudRate settings.timeout)
  match h.openFault with
  | some text => ⟨.error (.port text), { h with port }, []⟩
  | none =>
    let t := SerialLink.clear ⟨port, settings⟩
    ⟨t.result.map fun _ => t.link, { h with port := t.link.port }, []⟩

/-- Connects to an analyser and asks for its version and geometry. -/
def connect (name? path? : Option String) (settings : LinkSettings) :
    Connecting (Analyser SerialLink) := do
  let path ← choosePort name? path?
  let t := openLink path settings (← get)
  set t.link
  match t.result with
  | .error cause => throw (.link cause)
  | .ok link =>
    match Analyser.probe { link, log := t.link.log } with
    | .ok _ analyser => return analyser
    | .error cause analyser =>
      set { t.link with port := analyser.link.port, log := analyser.log }
      throw (.probe cause)

end Host

end LogicCapture.Serial
