import H8.Input

/-! Port files: names for memory-mapped registers.

A port file describes the devices of a processor family, line by line. A line
that starts with a dot opens the section of a device, except that `.default`
names the device that is selected at first. The ports in front of all sections
are shared by every device. `;` starts a comment. Lines that cannot be read
are skipped.
-/

set_option autoImplicit false

namespace H8

structure Port where
  name : String
  address : Address
  comment : Option String
  deriving DecidableEq, Repr

structure Device where
  name : String
  ports : List Port
  /-- The interrupt and reset vectors of the device. -/
  entries : List Port
  deriving DecidableEq, Repr

structure Ports where
  /-- What stands in front of all sections. -/
  common : Device
  /-- The devices in the order of their first sections. -/
  devices : List Device
  default : Option String
  /-- The name of the selected device. -/
  active : Option String
  /-- The address bits that a lookup compares. -/
  mask : Address
  deriving DecidableEq, Repr

namespace Device

def empty (name : String) : Device := ⟨name, [], []⟩

def addPort (device : Device) (port : Port) : Device :=
  { device with ports := device.ports ++ [port] }

def addEntry (device : Device) (entry : Port) : Device :=
  { device with entries := device.entries ++ [entry] }

end Device

def Port.parse? (line : List Char) : Option Port := do
  let (name, rest) ← Text.nextWord? line
  let (number, comment) ← Text.nextWord? rest
  let address ← Input.number? number
  return {
    name := String.ofList name
    address := UInt32.ofNat address
    comment := if comment.isEmpty then none else some (String.ofList comment) }

namespace Ports

def empty : Ports := ⟨.empty "", [], none, none, 0xFFFFFFFF⟩

inductive Line where
  /-- Blank lines, areas and lines that cannot be read. -/
  | nothing
  | setDefault (device : String)
  | openSection (device : String)
  | entry (entry : Port)
  | port (port : Port)
  deriving DecidableEq, Repr

def Line.parse (line : List Char) : Line :=
  let line := line.takeWhile (· ≠ ';')
  match Text.nextWord? line with
  | none => .nothing
  | some (keyword, rest) =>
    if keyword = ".default".toList then
      match Text.nextWord? rest with
      | some (name, _) => .setDefault (String.ofList name)
      | none => .nothing
    else match keyword with
      | '.' :: name => .openSection (String.ofList name)
      | _ =>
        if keyword = "area".toList then .nothing
        else if keyword = "entry".toList then
          ((Port.parse? rest).map Line.entry).getD .nothing
        else ((Port.parse? line).map Line.port).getD .nothing

/-- Change the device with a name, or the common part if no name is given. -/
def update (ports : Ports) (current : Option String) (change : Device → Device) : Ports :=
  match current with
  | none => { ports with common := change ports.common }
  | some name =>
    { ports with
      devices := ports.devices.map fun device =>
        if device.name = name then change device else device }

def ensure (ports : Ports) (name : String) : Ports :=
  if ports.devices.any fun device => device.name = name then ports
  else { ports with devices := ports.devices ++ [.empty name] }

def addLine (state : Ports × Option String) (line : Line) : Ports × Option String :=
  let (ports, current) := state
  match line with
  | .nothing => (ports, current)
  | .setDefault name => ({ ports with default := some name }, current)
  | .openSection name => (ports.ensure name, some name)
  | .entry entry => (ports.update current (·.addEntry entry), current)
  | .port port => (ports.update current (·.addPort port), current)

/-- Select a device; there is none to select unless it has a section. -/
def select? (ports : Ports) (name : String) : Option Ports :=
  if ports.devices.any fun device => device.name = name then
    some { ports with active := some name }
  else none

/-- Read a port file. The default device is selected if it has a section. -/
def parse (text : List Char) : Ports :=
  let (ports, _) := ((Text.lines text).map Line.parse).foldl addLine (empty, none)
  match ports.default with
  | some name => (ports.select? name).getD ports
  | none => ports

def ofBytes? (bytes : List UInt8) : Option Ports :=
  (String.fromUTF8? ⟨bytes.toArray⟩).map fun text => parse text.toList

def withMask (ports : Ports) (mask : Address) : Ports := { ports with mask }

def activeDevice? (ports : Ports) : Option Device :=
  ports.active.bind fun name => ports.devices.find? fun device => device.name = name

def answers (ports : Ports) (address : Address) (port : Port) : Bool :=
  port.address &&& ports.mask = address &&& ports.mask

/-- The port at an address: the first one of the selected device, or else the
first one that is shared. -/
def find? (ports : Ports) (address : Address) : Option Port :=
  -- The ports of the selected device hide shared ones at the same address.
  let own := (ports.activeDevice?.map Device.ports).getD []
  (own ++ ports.common.ports).find? (ports.answers address)

def name? (ports : Ports) (address : Address) : Option String :=
  (ports.find? address).map Port.name

def entries (ports : Ports) : List Port :=
  ports.common.entries ++ (ports.activeDevice?.map Device.entries).getD []

end Ports

end H8
