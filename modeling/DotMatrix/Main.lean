import DotMatrix.CommandLine.Session

/-!
# The program

The host of a session in the operating system.
-/

namespace DotMatrix

/-- Files, environment and streams of the process. -/
def processHost : Host IO where
  readFile path := do
    try
      let bytes ← IO.FS.readBinFile path
      return .ok bytes.data
    catch fault => return .error fault.toString
  writeFile path bytes := do
    try
      IO.FS.writeBinFile path ⟨bytes⟩
      return none
    catch fault => return some fault.toString
  environment name := IO.getEnv name
  print text := do
    let stream ← IO.getStdout
    stream.putStr text
    stream.flush
  printError text := IO.eprint text

end DotMatrix

def main (arguments : List String) : IO UInt32 :=
  DotMatrix.Session.main DotMatrix.processHost arguments
