import H8.Assembly.Style
import H8.Mode

/-! Programs: what a project says about one of its programs. -/

set_option autoImplicit false

namespace H8

open Assembly (Style)

structure Program where
  mode : Option Mode := none
  style : Option Style := none
  /-- The files that hold the program's images. -/
  images : List String := []
  name : Option String := none
  loadAddress : Option Address := none
  /-- The device whose ports are named. -/
  device : Option String := none
  /-- The port file, relative to the project file. -/
  portFile : Option String := none
  /-- Where analysis starts: addresses or labels. -/
  entryPoints : List String := []
  enumSize : Option Nat := none
  deriving DecidableEq, Repr

structure Config where
  mode : Mode := ⟨.h8300h, .advanced⟩
  style : Style := .gas
  /-- The device to select; the port file's own default if there is none. -/
  device : Option String := none
  /-- The path of the port file. -/
  portFile : Option String := none
  /-- The size of an enumeration in bytes. -/
  enumSize : Nat := 2
  deriving DecidableEq, Repr

def pathComponents (path : String) : List String :=
  ((path.toList.splitOn '/').filter fun component => !component.isEmpty).map String.ofList

/-- A path below a directory. A leading slash does not make it absolute. -/
def pathBelow (directory path : String) : String :=
  let below := String.intercalate "/" (pathComponents path)
  if below.isEmpty then directory
  else if directory.isEmpty then below
  else directory ++ "/" ++ below

namespace Program

/-- Settings of the second program take the place of those of the first. -/
def override (program other : Program) : Program where
  mode := other.mode <|> program.mode
  style := other.style <|> program.style
  images := if other.images.isEmpty then program.images else other.images
  name := other.name <|> program.name
  loadAddress := other.loadAddress <|> program.loadAddress
  device := other.device <|> program.device
  portFile := other.portFile <|> program.portFile
  entryPoints := if other.entryPoints.isEmpty then program.entryPoints else other.entryPoints
  enumSize := other.enumSize <|> program.enumSize

def loadedAt (program : Program) : Address := program.loadAddress.getD 0

/-- The processor settings that a program asks for, with paths below the
directory of the project file. -/
def config (program : Program) (directory : String) : Config :=
  let defaults : Config := {}
  { mode := program.mode.getD defaults.mode
    style := program.style.getD defaults.style
    device := program.device
    portFile := program.portFile.map (pathBelow directory)
    enumSize := program.enumSize.getD defaults.enumSize }

end Program

end H8
