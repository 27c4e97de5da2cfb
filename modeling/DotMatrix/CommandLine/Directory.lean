import DotMatrix.CommandLine.Session

/-!
# Sessions in a directory

A host that holds all a session can reach: the files of one directory without subdirectories, the
environment variables and the two output streams.
-/

namespace DotMatrix

/-- A directory without subdirectories, and what was printed. -/
structure Directory where
  /-- The files by name. -/
  files : List (String × Array UInt8)
  /-- The environment variables. -/
  environment : List (String × String) := []
  /-- What was printed. -/
  output : String := ""
  /-- What was printed to the error output. -/
  errorOutput : String := ""

namespace Directory

/-- The greatest number of bytes in the name of a file. -/
def maxNameBytes : Nat := 255

/-- The greatest number of bytes in a path, whatever its components stand for. -/
def maxPathBytes : Nat := 4095

/-- Whether a text can be the name of a file. -/
def isName (text : String) : Bool :=
  text ≠ "" && text ≠ "." && text ≠ ".." && text.utf8ByteSize ≤ maxNameBytes &&
    text.toList.all fun c => c ≠ '\x00'

/-- The name at the end of a path's components: those before it stand for the directory itself. -/
def lastName? : List String → Option String
  | [] => none
  | [name] => if isName name then some name else none
  | component :: rest => if component = "." || component = "" then lastName? rest else none

/-- The file that a path stands for, if it can stand for one. A path that is too long stands for
none, even if its name alone would do; nor does one that leaves the directory. -/
def name? (path : String) : Option String :=
  if path.utf8ByteSize > maxPathBytes || path.startsWith "/" then none
  else lastName? (path.splitOn "/")

/-- What went wrong with a path that stands for no file. -/
def noSuchFile : String := "No such file or directory (os error 2)"

/-- The bytes of the file at a path. -/
def read? (directory : Directory) (path : String) : Option (Array UInt8) :=
  (name? path).bind fun name => directory.files.lookup name

/-- The directory with a file at a path, if the path can stand for one. -/
def write? (directory : Directory) (path : String) (bytes : Array UInt8) : Option Directory :=
  (name? path).map fun name =>
    { directory with files := (name, bytes) :: directory.files.filter (·.1 != name) }

/-- The host of a session in a directory. -/
def host : Host (StateM Directory) where
  readFile path := do
    let directory ← get
    match directory.read? path with
    | some bytes => return .ok bytes
    | none => return .error noSuchFile
  writeFile path bytes := do
    let directory ← get
    match directory.write? path bytes with
    | some directory =>
      set directory
      return none
    | none => return some noSuchFile
  environment name := do
    let directory ← get
    return directory.environment.lookup name
  print text := modify fun directory => { directory with output := directory.output ++ text }
  printError text :=
    modify fun directory => { directory with errorOutput := directory.errorOutput ++ text }

end Directory

end DotMatrix
