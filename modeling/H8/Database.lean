import H8.Database.CrossReferences
import H8.Database.Heads
import H8.Database.Symbols
import H8.Memory
import H8.Switch

/-! What is known about a program under analysis. -/

set_option autoImplicit false

namespace H8

open Assembly (Label)

structure Database where
  memory : Memory
  heads : Heads
  symbols : Symbols
  references : CrossReferences
  /-- The entries of the known functions. -/
  functions : AddressMap Unit
  /-- Frames by the entry of their function. -/
  frames : AddressMap Frame
  /-- Jump tables by the address of their first element. -/
  switches : AddressMap SwitchTable

namespace Database

def ofMemory (memory : Memory) : Database :=
  ⟨memory, .empty, .empty, .empty, .empty, .empty, .empty⟩

def markHead? (database : Database) (address : Address) (length : Nat) : Option Database :=
  (database.heads.mark? address length).map fun heads => { database with heads }

def insertSymbol (database : Database) (label : Label) (address : Address) : Database :=
  { database with symbols := database.symbols.insert label address }

def upsertSymbol (database : Database) (label : Label) (address : Address) : Database :=
  { database with symbols := database.symbols.upsert label address }

def ensureLabel (database : Database) (address : Address) (kind : ReferenceKind) : Database :=
  { database with symbols := database.symbols.ensureLabel address kind }

def insertReference (database : Database) (reference : Reference) : Database :=
  { database with references := database.references.insert reference }

def insertFunction (database : Database) (entry : Address) : Database :=
  { database with functions := database.functions.insert entry () }

def insertFrame (database : Database) (frame : Frame) : Database :=
  { database with frames := database.frames.insert frame.entry frame }

def insertSwitch (database : Database) (switch : SwitchTable) : Database :=
  { database with switches := database.switches.insert switch.table switch }

/-- The frame of the last function that starts at or before an address. -/
def frameAt? (database : Database) (address : Address) : Option Frame :=
  match database.functions.atMost? address with
  | some (entry, _) => database.frames.get? entry
  | none => none

def view (database : Database) : View where
  read := database.memory.read
  isMapped := database.memory.isMapped
  previous? := database.heads.endingAt?
  isCodeTarget := database.references.isCodeTarget
  frameAt? := database.frameAt?

def readWord? (database : Database) (address : Address) : Option Nat :=
  database.memory.readNumber? address 2

def readLong? (database : Database) (address : Address) : Option Nat :=
  database.memory.readNumber? address 4

end Database

end H8
