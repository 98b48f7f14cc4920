import H8.Processor

/-! Paths, and files that are held in memory. -/

set_option autoImplicit false

namespace H8.CommandLine

def parentDirectory (path : String) : String :=
  String.ofList ((path.toList.reverse.dropWhile (· ≠ '/')).drop 1).reverse

def joinPath (directory path : String) : String :=
  if path.startsWith "/" || directory.isEmpty then path
  else if directory.endsWith "/" then directory ++ path
  else directory ++ "/" ++ path

structure FileTree where
  files : List (List String × List UInt8)

namespace FileTree

def ofFiles (files : List (String × List UInt8)) : FileTree :=
  ⟨files.map fun (path, bytes) => (pathComponents path, bytes)⟩

def isDirectory (tree : FileTree) (path : List String) : Bool :=
  path.isEmpty || tree.files.any fun file => path.isPrefixOf file.1 && path ≠ file.1

def absence (tree : FileTree) (path : List String) : FileError :=
  if tree.isDirectory path then .isDirectory else .notFound

/-- Follow the components of a path from a place in the tree. All but the last
must lead to directories, and none may lead out of the tree. -/
def follow (tree : FileTree) (place : List String) :
    List String → Except FileError (List String)
  | [] => .ok place
  | component :: rest =>
    if (tree.files.lookup place).isSome then .error .notDirectory
    else if !tree.isDirectory place then .error .notFound
    else if component = "." then follow tree place rest
    else if component = ".." then
      if place.isEmpty then .error .notFound else follow tree place.dropLast rest
    else follow tree (place ++ [component]) rest

/-- The components of a path as it is followed: a slash at its end asks for a
directory. -/
def route (path : String) : List String :=
  pathComponents path ++ (if path.endsWith "/" then ["."] else [])

/-- Read the file at a path. An empty path and an absolute one lead nowhere. -/
def read (tree : FileTree) (path : String) : Except FileError (List UInt8) := do
  if path.isEmpty || path.startsWith "/" then .error .notFound
  let place ← tree.follow [] (route path)
  match tree.files.lookup place with
  | some bytes => .ok bytes
  | none => .error (tree.absence place)

end FileTree

end H8.CommandLine
