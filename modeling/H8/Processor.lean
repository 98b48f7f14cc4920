import H8.Assembly.Render
import H8.Frame.Prologue
import H8.Listing
import H8.Ports
import H8.Project.Program

/-! A configured processor: its settings and the port names it has loaded. -/

set_option autoImplicit false

namespace H8

inductive FileError where
  | notFound
  /-- The path leads through something that is no directory. -/
  | notDirectory
  /-- The path leads to a directory. -/
  | isDirectory
  /-- The contents are not UTF-8. -/
  | notText
  /-- The file is there and cannot be read. -/
  | unreadable
  deriving DecidableEq, Repr

def FileError.message? : FileError → Option String
  | .notText => some "stream did not contain valid UTF-8"
  | .notFound | .notDirectory | .isDirectory | .unreadable => none

inductive SymbolError where
  | file (cause : FileError)
  | unknownDevice (name : String)
  deriving DecidableEq, Repr

def SymbolError.message? : SymbolError → Option String
  | .file cause => cause.message?
  | .unknownDevice name =>
    some ("Device " ++ name ++ " is not described in the port configuration")

structure Processor where
  config : Config := {}
  ports : Option Ports := none
  deriving DecidableEq, Repr

namespace Processor

def mode (processor : Processor) : Mode := processor.config.mode

/-- Change the mode. Port lookups then compare the address bits it has. -/
def setMode (processor : Processor) (mode : Mode) : Processor where
  config := { processor.config with mode }
  ports := processor.ports.map fun ports => ports.withMask mode.addressMask

/-- A change of a processor in place. One that fails leaves behind whatever it
has changed until then. -/
abbrev Change := EStateM SymbolError Processor

namespace Change

def select (ports : Ports) (device : String) : Change Ports :=
  match ports.select? device with
  | some ports => pure ports
  | none => throw (.unknownDevice device)

/-- Load the port names anew from the contents of the port file, and select
the device of the settings. Without a port file there are no names. -/
def reload (contents : Except FileError (List UInt8)) : Change Unit := do
  let config := (← get).config
  match config.portFile with
  | none => modify fun processor => { processor with ports := none }
  | some _ =>
    -- The names are complete before they take the place of the old ones.
    let bytes ← match contents with
      | .ok bytes => pure bytes
      | .error cause => throw (.file cause)
    let some ports := Ports.ofBytes? bytes | throw (.file .notText)
    let ports ← match config.device with
      | none => pure ports
      | some device => select ports device
    modify fun processor =>
      { processor with ports := some (ports.withMask config.mode.addressMask) }

/-- Select a device, now if port names are loaded, and for later loading. -/
def selectDevice (name : String) : Change Unit := do
  match (← get).ports with
  | none => pure ()
  | some ports =>
    let ports ← select ports name
    modify fun processor => { processor with ports := some ports }
  modify fun processor => { processor with config := { processor.config with device := some name } }

def result (change : Change Unit) (processor : Processor) : Except SymbolError Processor :=
  match change.run processor with
  | .ok _ changed => .ok changed
  | .error error _ => .error error

end Change

def reload (processor : Processor) (contents : Except FileError (List UInt8)) :
    Except SymbolError Processor :=
  (Change.reload contents).result processor

def selectDevice (processor : Processor) (name : String) : Except SymbolError Processor :=
  (Change.selectDevice name).result processor

def reset (_ : Processor) : Processor := {}

def maxPointerSize : Nat := 4 + 1

def purgedBytes : Nat := 2

/-- There are no pointers relative to a base. -/
def basedPointer? (_ : Instruction) : Option (Nat × Address) := none

def decoratedName? (_ : String) : Option String := none

def registerNames : List String := Register.all.map Register.name

def returnMnemonic : Mnemonic := .rts

def portName (processor : Processor) (address : Address) : Option String :=
  processor.ports.bind fun ports => ports.name? address

def context (processor : Processor) : ListingContext := ⟨processor.mode, processor.portName⟩

end Processor

end H8
