import H8.Json.Shape
import H8.Project.Program

/-! Project files.

A project names programs. Its file is a JSON record with one field `programs`,
an object of programs by name. Unknown fields are passed over; a known field
may stand once only. The programs are named when the whole file is read.
-/

set_option autoImplicit false

namespace H8

open Assembly (Style)
open Json (Shape)

structure Project where
  /-- The programs in increasing order of their names. -/
  programs : List (String × Program) := []
  /-- The directory that relative paths start from. -/
  directory : String := ""
  deriving DecidableEq, Repr

namespace Project

/-- Add a program to a list that is ordered by name. A program of the same
name is replaced. -/
def insertProgram (name : String) (program : Program) :
    List (String × Program) → List (String × Program)
  | [] => [(name, program)]
  | first :: rest =>
    if name < first.1 then (name, program) :: first :: rest
    else if name = first.1 then (name, program) :: rest
    else first :: insertProgram name program rest

def program? (project : Project) (name : String) : Option Program :=
  (project.programs.find? fun entry => entry.1 = name).map Prod.snd

def default? (project : Project) : Option (String × Program) := project.programs.head?

end Project

namespace Program

/-- A program that is being read; the images must be given. -/
structure Draft where
  program : Program := {}
  images : Option (List String) := none

def fieldNames : List String :=
  ["mode", "assembler", "images", "load_address", "device", "port_config", "entry_points",
    "enum_size"]

def field (draft : Draft) (name : String) : Shape Draft :=
  let program := draft.program
  let set {Value : Type} (shape : Shape Value) (update : Value → Program) : Shape Draft :=
    .map (fun value => { draft with program := update value }) shape
  if name = "mode" then
    set (.nullable (.named Mode.ofName?)) fun mode => { program with mode }
  else if name = "assembler" then
    set (.nullable (.named Style.ofName?)) fun style => { program with style }
  else if name = "images" then
    .map (fun images => { draft with images := some images }) (.array .text)
  else if name = "load_address" then
    set (.nullable .word32) fun loadAddress => { program with loadAddress }
  else if name = "device" then
    set (.nullable .text) fun device => { program with device }
  else if name = "port_config" then
    set (.nullable .text) fun portFile => { program with portFile }
  else if name = "entry_points" then
    set (.array .text) fun entryPoints => { program with entryPoints }
  else if name = "enum_size" then
    set (.nullable .natural32) fun enumSize => { program with enumSize }
  else .map (fun _ => draft) .anything

def Draft.complete? (draft : Draft) : Option Program :=
  draft.images.map fun images => { draft.program with images }

def shape : Shape Program := .refine Draft.complete? (.record fieldNames field {})

def toJson (program : Program) : Json :=
  .object
    [("mode", .ofOption (fun mode => .text mode.savedName) program.mode),
      ("assembler", .ofOption (fun style => .text style.savedName) program.style),
      ("images", .array (program.images.map .text)),
      ("load_address", .ofOption (fun address => .number address.toNat) program.loadAddress),
      ("device", .ofOption .text program.device),
      ("port_config", .ofOption .text program.portFile),
      ("entry_points", .array (program.entryPoints.map .text)),
      ("enum_size", .ofOption .number program.enumSize)]

end Program

namespace Project

/-- Of two programs with one name the later counts. -/
def programsShape : Shape (List (String × Program)) :=
  .object (fun programs name => .map (insertProgram name · programs) Program.shape) []

def field (programs : Option (List (String × Program))) (name : String) :
    Shape (Option (List (String × Program))) :=
  if name = "programs" then .map some programsShape else .map (fun _ => programs) .anything

def shape : Shape Project :=
  .refine (fun programs => programs.map fun programs => { programs })
    (.record ["programs"] field none)

/-- A program without a name takes the one that it stands under. -/
def withNames (project : Project) : Project :=
  { project with
    programs := project.programs.map fun (name, program) =>
      (name, { program with name := program.name <|> some name }) }

def read (format : Json.Format) (bytes : Json.Bytes) : Except Json.ReadError Project :=
  (format.read shape bytes).map withNames

def parse (bytes : Json.Bytes) : Except Json.ReadError Project := read .standard bytes

def toJson (project : Project) : Json :=
  .object
    [("programs", .object (project.programs.map fun (name, program) => (name, program.toJson)))]

structure MissingProgram where
  name : String
  deriving DecidableEq, Repr

def MissingProgram.message (missing : MissingProgram) : String :=
  "Program " ++ missing.name ++ " is missing from project file"

/-- Pick the named or else the default program, and let the given settings
take the place of its own. -/
def resolve (project : Project) (name : Option String) (settings : Program) :
    Except MissingProgram Program :=
  match name with
  | some name =>
    match project.program? name with
    | some program => .ok (program.override settings)
    | none => .error ⟨name⟩
  | none => .ok (((project.default?.map Prod.snd).getD {}).override settings)

end Project

end H8
