import H8.Assembly.Directive
import H8.Assembly.Render
import H8.Database

/-! Listings of address ranges.

Known instructions are rendered, jump tables become tables of pointers, other
bytes become data and unmapped ranges become reserved space. Pointers with a
label are written by their label.
-/

set_option autoImplicit false

namespace H8

open Assembly

structure ListingContext where
  mode : Mode
  /-- The names of the ports, which take the place of their addresses. -/
  portName : Address → Option String

def dataRunLength : Nat := 16

structure DataRun where
  start : Address
  bytes : List UInt8
  deriving DecidableEq, Repr

namespace DataRun

def rows (run : DataRun) : List Located :=
  if run.bytes.isEmpty then [] else [⟨run.start, .data run.bytes⟩]

def extend (run : DataRun) (address : Address) (bytes : List UInt8) : DataRun :=
  if run.bytes.isEmpty then ⟨address, bytes⟩ else { run with bytes := run.bytes ++ bytes }

def isFull (run : DataRun) : Bool := dataRunLength ≤ run.bytes.length

end DataRun

inductive Item where
  /-- Plain data. -/
  | bytes (bytes : List UInt8)
  /-- A directive of its own, and where the next item starts. -/
  | block (directive : Directive) (next : Address)
  deriving Repr

namespace Database

def nextMapped (database : Database) (address stop : Address) : Address :=
  let starts := (database.memory.segments.map Segment.start).filter (address < ·)
  starts.foldl min stop

def label? (database : Database) (address : Address) : Option Label :=
  database.symbols.label? address

def targetTerm (database : Database) (target : Address) : Term :=
  match database.label? target with
  | some label => .codeLabel label
  | none => .codePointer target

def knownInstruction? (database : Database) (mode : Mode) (address : Address) :
    Option Instruction :=
  if database.heads.contains address then (database.view.decodeAt address mode).toOption else none

/-- The jump table at an address where no instruction is known. -/
def listedSwitch? (database : Database) (address : Address) : Option SwitchTable :=
  if database.heads.contains address then none else database.switches.get? address

def item (database : Database) (context : ListingContext) (stop address : Address) : Item :=
  if !database.memory.isMapped address then
    let resume := database.nextMapped address stop
    .block (.space (resume.toNat - address.toNat)) resume
  -- A table that lies inside code is listed as the code it is.
  else match database.listedSwitch? address with
    | some switch =>
      .block (.pointers (switch.targets.map database.targetTerm) switch.elementSize)
        (Address.saturatingAdd address (switch.count * switch.elementSize))
    | none =>
      match database.knownInstruction? context.mode address with
      | some instruction =>
        let statement := (render context.portName instruction).resolve fun pointer _ =>
          database.label? pointer
        .block (.instruction statement instruction.length)
          (Address.saturatingAdd address instruction.length)
      | none => .bytes (database.memory.read address 1)

def frameComment (frame : Frame) : String :=
  "frame: " ++ Text.decimal frame.size ++ " bytes, " ++ Text.decimal frame.savedCount ++ " saved"

/-- The rows in front of the item at an address: its label, and above it a
remark on the frame if a function with a frame starts there. -/
def heading (database : Database) (address : Address) : List Located :=
  match database.label? address with
  | some label =>
    ((database.frames.get? address).map fun frame =>
      ⟨address, .comment (frameComment frame)⟩).toList ++ [⟨address, .label label⟩]
  | none => []

end Database

structure Listing where
  address : Address
  run : DataRun
  rows : Array Located

namespace Listing

def flush (listing : Listing) : Listing :=
  { listing with rows := listing.rows ++ listing.run.rows, run := ⟨listing.address, []⟩ }

def label (database : Database) (listing : Listing) : Listing :=
  match database.heading listing.address with
  | [] => listing
  | heading =>
    let listing := listing.flush
    { listing with rows := listing.rows ++ heading }

def step (database : Database) (context : ListingContext) (stop : Address) (listing : Listing) :
    Listing :=
  let listing := listing.label database
  match database.item context stop listing.address with
  | .block directive next =>
    let listing := listing.flush
    { listing with
      address := next
      rows := listing.rows.push ⟨listing.address, directive⟩ }
  | .bytes bytes =>
    let run := listing.run.extend listing.address bytes
    let listing := { listing with run, address := listing.address + 1 }
    if run.isFull then listing.flush else listing

/-- List items until the end is reached. An item that takes no room would end
the listing. -/
def complete (database : Database) (context : ListingContext) (stop : Address)
    (listing : Listing) : Listing :=
  if _inside : listing.address < stop then
    let next := listing.step database context stop
    if _onward : listing.address < next.address then complete database context stop next
    else next.flush
  else listing.flush
  termination_by stop.toNat - listing.address.toNat
  decreasing_by
    have : listing.address.toNat < stop.toNat := UInt32.lt_iff_toNat_lt.mp _inside
    have : listing.address.toNat < (listing.step database context stop).address.toNat :=
      UInt32.lt_iff_toNat_lt.mp _onward
    omega

end Listing

def Database.list (database : Database) (context : ListingContext) (start stop : Address) :
    Section where
  name := "seg_" ++ Text.hex start.toNat
  directives :=
    (Listing.complete database context stop
      ⟨start, ⟨start, []⟩, #[⟨start, .origin start⟩]⟩).rows.toList

/-- The end of the unbroken run of known instructions that starts at an
address. -/
def Database.endOfCode (database : Database) (address : Address) : Address :=
  match database.heads.get? address with
  | none => address
  | some length =>
    let next := address + UInt32.ofNat length
    if _onward : address < next then database.endOfCode next else next
  termination_by UInt32.size - address.toNat
  decreasing_by
    have : address.toNat < (address + UInt32.ofNat length).toNat :=
      UInt32.lt_iff_toNat_lt.mp _onward
    have := (address + UInt32.ofNat length).toNat_lt_size
    omega

end H8
