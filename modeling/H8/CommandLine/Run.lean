import H8.Assembly.Style
import H8.CommandLine.Arguments
import H8.CommandLine.Files
import H8.Project
import H8.Scan

/-! What the commands do and print. Files are read through a function that is
given, so that commands run on a disk and in memory alike. -/

set_option autoImplicit false

namespace H8.CommandLine

inductive Failure where
  | usage
  | file (cause : FileError)
  /-- The project file cannot be read. -/
  | project (cause : Json.ReadError)
  | missingProgram (cause : Project.MissingProgram)
  | unknownDevice (name : String)
  | undecodable (cause : DecodeError)
  | noCommand
  | notHexadecimal
  | badAddress
  | noImage
  | badStart
  | badEnd
  | badFunction
  deriving DecidableEq, Repr

def Failure.message? : Failure → Option String
  | .usage | .project _ => none
  | .file cause => cause.message?
  | .missingProgram cause => some cause.message
  | .unknownDevice name => (SymbolError.unknownDevice name).message?
  | .undecodable cause => some cause.message
  | .noCommand => some "No command given; try --help"
  | .notHexadecimal => some "Bytes must be given in hex"
  | .badAddress => some "Invalid address"
  | .noImage => some "Did not specify an image"
  | .badStart => some "Must specify a valid address to analyze"
  | .badEnd => some "Invalid end address"
  | .badFunction => some "Must specify a valid function address"

def Failure.ofSymbolError : SymbolError → Failure
  | .file cause => .file cause
  | .unknownDevice name => .unknownDevice name

def defaultProjectFile : String := "h8dis.json"

namespace Arguments

/-- The settings of the command line as those of a program. Values that cannot
be read are ignored. -/
def program (arguments : Arguments) : Program where
  mode := (arguments.value? .mode).bind Mode.ofName?
  style := (arguments.value? .asm).bind Assembly.Style.ofName?
  images := (arguments.value? .image).toList
  loadAddress := ((arguments.value? .loadAddress).bind fun text =>
    Input.number? text.toList).map UInt32.ofNat
  device := arguments.value? .device
  portFile := arguments.value? .ports

end Arguments

def shownAddress (address : Address) : String := "$" ++ Text.paddedHex 6 address.toNat

def edgeLine : Edge → String
  | .fallthrough next => "  falls through to " ++ shownAddress next
  | .jump (some target) => "  jumps to " ++ shownAddress target
  | .jump none => "  jumps to an unknown target"
  | .conditional target => "  may branch to " ++ shownAddress target
  | .call (some target) => "  calls " ++ shownAddress target
  | .call none => "  calls an unknown target"
  | .back => "  returns"

def instructionReport (processor : Processor) (instruction : Instruction) (effects : Effects) :
    String :=
  let statement := Assembly.render processor.portName instruction
  let lines :=
    ["  length " ++ Text.decimal instruction.length] ++
      effects.edges.map edgeLine ++
      effects.dataTargets.map (fun target => "  references data at " ++ shownAddress target) ++
      (effects.stackDelta.map fun delta =>
        "  moves sp by " ++ Text.explicitDecimal delta).toList
  processor.config.style.statementLine statement ++ String.join (lines.map (· ++ "\n"))

def roleName : Role → String
  | .savedRegister => "saved register"
  | .localVariable => "local"
  | .returnAddress => "return address"
  | .argument => "argument"

def regionLine (region : Region) : String :=
  "  " ++ Text.padLeft ' ' 5 (Text.explicitDecimal region.offset) ++ " " ++
    Text.padLeft ' ' 3 (Text.decimal region.size) ++ " " ++ roleName region.role

def frameReport (entry : Address) : Except FrameFailure Frame → String
  | .error failure => shownAddress entry ++ ": " ++ failure.message ++ "\n"
  | .ok frame =>
    let lines :=
      [shownAddress entry ++ ": " ++ Text.decimal frame.size ++
          " byte frame, prologue ends at " ++ shownAddress frame.prologueEnd] ++
        (frame.pointer.map fun pointer =>
          "  frame pointer " ++ pointer.register.name ++ " = sp" ++
            Text.explicitDecimal pointer.offset).toList ++
        frame.regions.map regionLine
    String.join (lines.map (· ++ "\n"))

def handler? (mode : Mode) (database : Database) (vector : Port) : Option Address :=
  let value? :=
    if mode.isAdvanced then database.readLong? vector.address
    else database.readWord? vector.address
  (value?.map fun value => UInt32.ofNat value &&& mode.addressMask).filter database.memory.isMapped

/-- Where the analysis of a program starts, beside the address asked for: its
own entry points and the handlers of the device's vectors. -/
def entryPoints (program : Program) (processor : Processor) (database : Database) :
    List Address :=
  program.entryPoints.filterMap (Input.address? database.symbols.address?) ++
    ((processor.ports.map Ports.entries).getD []).filterMap (handler? processor.mode database)

section

variable {m : Type → Type} [Monad m]
variable (readFile : String → m (Except FileError (List UInt8)))

def loadProcessor (program : Program) (directory : String) : ExceptT Failure m Processor := do
  let processor : Processor := { config := program.config directory }
  let contents ← match processor.config.portFile with
    | some path => (readFile path : m _)
    | none => pure (.ok [])
  match processor.reload contents with
  | .ok processor => return processor
  | .error error => throw (.ofSymbolError error)

def loadSession (program : Program) (directory : String) :
    ExceptT Failure m (Processor × Database) := do
  let processor ← loadProcessor readFile program directory
  match program.images with
  | [] => throw .noImage
  | image :: _ =>
    match ← (readFile (joinPath directory image) : m _) with
    | .error cause => throw (.file cause)
    | .ok bytes => return (processor, .ofMemory (.ofImage bytes.toArray program.loadedAt))

def runDecode (program : Program) (directory : String) (location : Option String)
    (words : List String) : ExceptT Failure m String := do
  let processor ← loadProcessor readFile program directory
  let some bytes := Input.bytes? (String.intercalate " " words) | throw .notHexadecimal
  let address ← match location with
    | none => pure program.loadedAt
    | some text =>
      match Input.address? (fun _ => none) text with
      | some address => pure address
      | none => throw .badAddress
  match decode bytes address processor.mode with
  | .error cause => throw (.undecodable cause)
  | .ok instruction =>
    let database := Database.ofMemory (Memory.empty.install ⟨"INPUT", address, bytes.toArray⟩)
    return instructionReport processor instruction
      (instruction.effects database.view processor.mode)

def runDisassemble (program : Program) (directory start : String) (stop : Option String) :
    ExceptT Failure m String := do
  let (processor, database) ← loadSession readFile program directory
  let some start := Input.address? database.symbols.address? start | throw .badStart
  let entries := start :: entryPoints program processor database
  let (database, _) := database.scan entries processor.mode
  let stop ← match stop with
    | none => pure (database.endOfCode start)
    | some text =>
      match Input.address? database.symbols.address? text with
      | some stop => pure stop
      | none => throw .badEnd
  return processor.config.style.sectionText (database.list processor.context start stop)

def runFrame (program : Program) (directory start : String) : ExceptT Failure m String := do
  let (processor, database) ← loadSession readFile program directory
  let some entry := Input.address? database.symbols.address? start | throw .badFunction
  let (database, _) := database.scan [entry] processor.mode
  return frameReport entry (buildFrame database.view processor.mode entry)

/-- Read the project file. A file that is not there is an empty project. -/
def loadProject (path : String) : ExceptT Failure m Project := do
  match ← (readFile path : m _) with
  | .error .notFound => return {}
  | .error cause => throw (.file cause)
  | .ok bytes =>
    match Project.parse bytes with
    | .ok project => return { project with directory := parentDirectory path }
    | .error cause => throw (.project cause)

def run (words : List String) : ExceptT Failure m String := do
  match Arguments.parse words with
  | .error _ => throw .usage
  | .ok arguments =>
    let project ← loadProject readFile ((arguments.value? .project).getD defaultProjectFile)
    match project.resolve (arguments.value? .program) arguments.program with
    | .error cause => throw (.missingProgram cause)
    | .ok program =>
      match arguments.command with
      | some (.decode, words) =>
        runDecode readFile program project.directory (arguments.value? .at) words
      | some (.disassemble, start :: rest) =>
        runDisassemble readFile program project.directory start rest.head?
      | some (.frame, start :: _) => runFrame readFile program project.directory start
      | _ => throw .noCommand

end

end H8.CommandLine
