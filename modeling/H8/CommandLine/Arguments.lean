/-! The arguments of the command line.

Settings may stand in front of the command or behind it; where a setting
stands in both places, the one behind the command counts. An argument that
starts with a hyphen is never the value of a setting, unless it is a single
hyphen. After `--` all arguments are plain.
-/

set_option autoImplicit false

namespace H8.CommandLine

inductive Command where
  /-- Scan a program and list the code at an address. -/
  | disassemble
  /-- Recover the stack frame of a function. -/
  | frame
  /-- Decode a single instruction from its bytes. -/
  | decode
  deriving DecidableEq, Repr

namespace Command

def all : List Command := [.disassemble, .frame, .decode]

def word : Command → String
  | .disassemble => "dis"
  | .frame => "frame"
  | .decode => "decode"

def ofWord? (word : String) : Option Command := all.find? fun command => command.word = word

def ofName? (name : String) : Option Command := ofWord? name.toLower

def accepts : Command → Nat → Bool
  | .disassemble, count => count = 1 || count = 2
  | .frame, count => count = 1
  | .decode, count => 1 ≤ count

end Command

inductive Setting where
  | mode
  | asm
  | image
  | loadAddress
  | device
  | ports
  | program
  | project
  /-- The address that bytes are decoded at. -/
  | at
  deriving DecidableEq, Repr

namespace Setting

def common : List Setting :=
  [.mode, .asm, .image, .loadAddress, .device, .ports, .program, .project]

def name : Setting → String
  | .mode => "mode"
  | .asm => "asm"
  | .image => "image"
  | .loadAddress => "load-address"
  | .device => "device"
  | .ports => "ports"
  | .program => "program"
  | .project => "project"
  | .at => "at"

def known : Option Command → List Setting
  | some .decode => .at :: common
  | _ => common

def ofName? (command : Option Command) (name : String) : Option Setting :=
  (known command).find? fun setting => setting.name = name

end Setting

structure UsageError where
  deriving DecidableEq, Repr

structure Level where
  /-- The settings given, with their values once they are read. -/
  settings : List (Setting × Option String) := []
  plain : List String := []
  /-- The setting whose value is expected next. -/
  awaiting : Option Setting := none
  /-- Only plain arguments follow. -/
  plainOnly : Bool := false
  deriving DecidableEq, Repr

namespace Level

def isMarked (argument : String) : Bool :=
  match argument.toList with
  | '-' :: _ :: _ => true
  | _ => false

def addValue (level : Level) (setting : Setting) (value : String) : Level :=
  { level with
    settings := level.settings.map fun entry =>
      if entry = (setting, none) then (setting, some value) else entry
    awaiting := none }

def addSetting (level : Level) (command : Option Command) (argument : List Char) :
    Except UsageError Level :=
  let text := argument.dropWhile (· = '-')
  let name := text.takeWhile (· ≠ '=')
  let value := text.dropWhile (· ≠ '=')
  match Setting.ofName? command (String.ofList name) with
  | none => .error ⟨⟩
  | some setting =>
    if level.settings.any fun entry => entry.1 = setting then .error ⟨⟩
    else
      let level := { level with settings := level.settings ++ [(setting, none)] }
      if value.isEmpty then .ok { level with awaiting := some setting }
      else .ok (level.addValue setting (String.ofList (value.dropWhile (· = '='))))

/-- Read an argument that starts with a hyphen. The only flag is `-v`. -/
def addMarked (level : Level) (command : Option Command) (argument : String) :
    Except UsageError Level :=
  match argument.toList with
  -- A setting that still waits for its value then has none.
  | '-' :: '-' :: [] => .ok { level with plainOnly := true, awaiting := none }
  | '-' :: '-' :: _ => level.addSetting command argument.toList
  | flags =>
    if flags.tail.all (· = 'v') then .ok { level with awaiting := none } else .error ⟨⟩

def values (level : Level) : Except UsageError (List (Setting × String)) :=
  level.settings.mapM fun
    | (setting, some value) => .ok (setting, value)
    | (_, none) => .error ⟨⟩

def afterCommand (command : Command) (level : Level) : List String → Except UsageError Level
  | [] => .ok level
  | argument :: rest =>
    if !level.plainOnly && isMarked argument then do
      afterCommand command (← level.addMarked (some command) argument) rest
    else match level.awaiting with
      | some setting => afterCommand command (level.addValue setting argument) rest
      | none => afterCommand command { level with plain := level.plain ++ [argument] } rest

/-- Read the arguments in front of the command, and give the command with the
arguments behind it. -/
def beforeCommand (level : Level) :
    List String → Except UsageError (Level × Option (Command × List String))
  | [] => .ok (level, none)
  | argument :: rest =>
    if !level.plainOnly && isMarked argument then do
      beforeCommand (← level.addMarked none argument) rest
    else match level.awaiting with
      | some setting => beforeCommand (level.addValue setting argument) rest
      | none =>
        match Command.ofWord? argument with
        | some command => if level.plainOnly then .error ⟨⟩ else .ok (level, some (command, rest))
        | none => .error ⟨⟩

end Level

structure Arguments where
  /-- The settings, those that count most first. -/
  settings : List (Setting × String)
  command : Option (Command × List String)
  deriving DecidableEq, Repr

namespace Arguments

def parse (arguments : List String) : Except UsageError Arguments := do
  match ← Level.beforeCommand {} arguments with
  | (front, none) => return ⟨← front.values, none⟩
  | (front, some (command, rest)) =>
    let back ← Level.afterCommand command {} rest
    if command.accepts back.plain.length then
      return ⟨(← back.values) ++ (← front.values), some (command, back.plain)⟩
    else .error ⟨⟩

def value? (arguments : Arguments) (setting : Setting) : Option String :=
  arguments.settings.lookup setting

end Arguments

end H8.CommandLine
