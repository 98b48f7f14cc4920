import H8.CommandLine.Run

/-! The command line program. -/

set_option autoImplicit false

namespace H8.CommandLine

def readFromDisk (path : String) : IO (Except FileError (List UInt8)) := do
  try
    let bytes ← IO.FS.readBinFile path
    return .ok bytes.toList
  catch
    | .noFileOrDirectory .. => return .error .notFound
    | _ => return .error .unreadable

def fallbackMessage : Failure → String
  | .usage => "the arguments form no command line"
  | .project _ => "the project file cannot be read"
  | _ => "a file cannot be read"

end H8.CommandLine

open H8.CommandLine in
def main (words : List String) : IO UInt32 := do
  match ← (run readFromDisk words).run with
  | .ok text =>
    IO.print text
    return 0
  | .error failure =>
    IO.eprintln (failure.message?.getD (fallbackMessage failure))
    return 1
