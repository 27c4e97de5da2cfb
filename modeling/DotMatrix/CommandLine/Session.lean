import DotMatrix.CommandLine.Options
import DotMatrix.Log.Record
import DotMatrix.Machine.Run
import DotMatrix.Video.Rgb

/-!
# Sessions

A session reads a cartridge file, runs the machine and shows what came of it. What the machine does
(`Play`) is a function of the options, the settings and the image. Files, streams and environment
variables are reached through a `Host`, so a session runs on any monad that has one.
-/

namespace DotMatrix

/-! ## Playing a cartridge -/

/-- A cartridge that was run. -/
structure Play where
  config : Config
  image : Cartridge.Image
  run : Run

namespace Play

def start (config : Config) (image : Cartridge.Image) : Machine :=
  (Machine.initial config).insert image

/-- Runs a cartridge as the options ask for. -/
def ofOptions (options : Options) (config : Config) (image : Cartridge.Image) : Play where
  config := config
  image := image
  run :=
    match options.purpose with
    | .frames count => (start config image).runFrames count options.maxCycles
    | .untilSerial => (start config image).runUntilSerial options.maxCycles

/-- The settings in a log record. -/
def configText (config : Config) : String :=
  s!"MachineConfig \x7b ppu_clock_multiplier: {config.dotsPerCycle}, " ++
    s!"serial_echo: {config.serialEcho}, enforce_halt: {config.enforceHalt} \x7d"

/-- The end of a run in a log record. -/
def endText (run : Run) : String :=
  let board := run.machine.board
  s!"{run.exit.name} after {board.cycles} cycles, {board.ppu.frames} frames"

/-- The log of a run: the settings, what the machine reports while the cartridge is inserted and
while it runs, and the end. -/
def records (play : Play) : List Log.Record :=
  let inserted := (Cartridge.loadEvents play.image).toArray
  let reported := (start play.config play.image).stepLog inserted play.run.steps
  ⟨.debug, configText play.config⟩ :: reported.toList.map Log.ofEvent ++
    [⟨.info, endText play.run⟩]

/-- The picture of the last frame, under the palette that the program set. -/
def picture (play : Play) : Rgb.Picture :=
  let machine := play.run.machine
  Rgb.picture machine.board.ppu.front
    (Memory.load machine.memory HardwareRegister.backgroundPalette)

end Play

/-! ## Sessions -/

/-- How a session reaches the world around it. -/
structure Host (m : Type → Type) where
  /-- The bytes of a file, or what went wrong. -/
  readFile : String → m (Except String Cartridge.Image)
  /-- Writes a file and says what went wrong, if anything did. -/
  writeFile : String → Array UInt8 → m (Option String)
  environment : String → m (Option String)
  print : String → m Unit
  printError : String → m Unit

/-- Why a session failed. -/
inductive SessionError where
  | readRom (path : String) (cause : String)
  | writeFrame (path : String) (cause : String)
deriving DecidableEq, Repr

namespace SessionError

/-- The fault in words. -/
def message : SessionError → String
  | .readRom path _ => s!"failed to read ROM '{path}'"
  | .writeFrame path _ => s!"failed to write frame '{path}'"

def causes : SessionError → List String
  | .readRom _ cause => [cause]
  | .writeFrame _ cause => [cause]

end SessionError

/-- What came of a session. -/
structure SessionOutcome where
  /-- What was run, unless the cartridge file could not be read. -/
  play : Option Play
  /-- How the run ended, or why the session failed. -/
  result : Except SessionError Exit

namespace Session

variable {m : Type → Type} [Monad m]

/-- The settings in the environment of a host. -/
def readConfig (host : Host m) : m Config := do
  let dots ← host.environment Config.dotsVariable
  let echo ← host.environment Config.echoVariable
  let halt ← host.environment Config.haltVariable
  return Config.ofEnvironment fun name =>
    if name = Config.dotsVariable then dots
    else if name = Config.echoVariable then echo
    else if name = Config.haltVariable then halt
    else none

def writtenText (path : String) : String :=
  s!"Wrote {screenHeight * screenWidth * 3} bytes ({screenWidth}x{screenHeight} rgb24) to '{path}'\n"

/-- Writes the picture of the last frame to a file. -/
def dump (host : Host m) (play : Play) (path : String) : m (Except SessionError Exit) := do
  match ← host.writeFile path play.picture.toArray with
  | some cause => return .error (.writeFrame path cause)
  | none =>
    host.print (writtenText path)
    return .ok play.run.exit

/-- Runs a session: reads the cartridge file, runs the machine, prints what the program sent over the
serial port and writes the picture of the last frame, if it is wanted. -/
def run (host : Host m) (options : Options) : m SessionOutcome := do
  match ← host.readFile options.rom with
  | .error cause => return ⟨none, .error (.readRom options.rom cause)⟩
  | .ok image =>
    let config ← readConfig host
    let play := Play.ofOptions options config image
    host.print play.run.machine.board.serial.text
    match options.dumpFrame with
    | none => return ⟨some play, .ok play.run.exit⟩
    | some path => return ⟨some play, ← dump host play path⟩

/-- A fault as it is shown to the user. -/
def errorText (message : String) (causes : List String) : String :=
  let listed := causes.map fun cause => s!"    {cause}\n"
  s!"Error: {message}\n" ++
    if causes.isEmpty then "" else "\nCaused by:\n" ++ String.join listed

/-- Whether an exit is what the options asked for. -/
def isSuccess (purpose : Purpose) : Exit → Bool
  | .frames => true
  | .passed => true
  | .stopped => true
  | .failed => false
  | .locked => false
  | .cycleLimit =>
    match purpose with
    | .frames _ => true
    | .untilSerial => false

/-- Runs a session that the options ask for and returns the exit code of the program. -/
def runToCode (host : Host m) (options : Options) : m UInt32 := do
  let outcome ← run host options
  match outcome.result with
  | .error fault =>
    host.printError (errorText fault.message fault.causes)
    return 1
  | .ok exit =>
    if isSuccess options.purpose exit then
      return 0
    else
      host.printError s!"Run ended with {exit.name}\n"
      return 1

/-- The whole program: a request for help goes before all else. -/
def main (host : Host m) (arguments : List String) : m UInt32 :=
  if arguments.any fun argument => argument == "-h" || argument == "--help" then do
    host.print (Options.usage ++ "\n")
    return 0
  else
    match Options.parse arguments with
    | .error fault => do
      host.printError (errorText fault.message fault.causes)
      return 1
    | .ok options => runToCode host options

end Session

end DotMatrix
