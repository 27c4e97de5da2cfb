import DotMatrix.Text.Numeral

/-!
# Options

What the command line asks for. Arguments are read from left to right: three options take the next
argument as their value, whatever it looks like; `--until-serial` stands alone; another argument that
begins with two dashes is no option; any other argument names the cartridge file, of which there has
to be exactly one. A later option overrides an earlier one, and the first fault decides.
-/

namespace DotMatrix

/-- What a run is for. -/
inductive Purpose where
  | frames (count : Nat)
  /-- To hear the program's result over the serial port. -/
  | untilSerial
deriving DecidableEq, Repr

/-- What the command line asks for. -/
structure Options where
  rom : String
  purpose : Purpose
  maxCycles : Nat
  dumpFrame : Option String
deriving DecidableEq, Repr

/-- An option that takes a value. -/
inductive ValueOption where
  | frames
  | maxCycles
  | dumpFrame
deriving DecidableEq, Repr

namespace ValueOption

/-- An option as it is written. -/
def text : ValueOption → String
  | .frames => "--frames"
  | .maxCycles => "--max-cycles"
  | .dumpFrame => "--dump-frame"

/-- The option that is written so. -/
def ofText? (argument : String) : Option ValueOption :=
  [.frames, .maxCycles, .dumpFrame].find? fun option => option.text == argument

/-- What the value of an option is called. -/
def valueNoun : ValueOption → String
  | .frames => "a value"
  | .maxCycles => "a value"
  | .dumpFrame => "a path"

end ValueOption

/-- What is wrong with a command line. -/
inductive OptionError where
  /-- An option is the last argument and has no value. -/
  | missingValue (option : ValueOption)
  | invalidFrames (value : String) (cause : Text.NumeralError)
  | invalidCycles (value : String) (cause : Text.NumeralError)
  | unknownOption (argument : String)
  /-- There is a second cartridge file. -/
  | unexpectedArgument (argument : String)
  | noRom
deriving DecidableEq, Repr

namespace Options

def usage : String :=
  "Usage: sharpboy <rom> [--frames N | --until-serial] [--max-cycles N] [--dump-frame PATH]"

/-- The cycles that a run may take if nothing else is asked for. -/
def defaultMaxCycles : Nat := 200000000

/-- The frames to complete if nothing else is asked for. -/
def defaultFrames : Nat := 60

/-- The greatest number that an option may have. -/
def numberLimit : Nat := UInt64.size - 1

end Options

namespace OptionError

/-- The fault in words. -/
def message : OptionError → String
  | .missingValue option => s!"{option.text} needs {option.valueNoun}"
  | .invalidFrames value _ => s!"invalid frame count '{value}'"
  | .invalidCycles value _ => s!"invalid cycle budget '{value}'"
  | .unknownOption argument => s!"unknown option '{argument}'\n{Options.usage}"
  | .unexpectedArgument argument => s!"unexpected argument '{argument}'\n{Options.usage}"
  | .noRom => s!"no ROM path given\n{Options.usage}"

/-- What lies behind the fault. -/
def causes : OptionError → List String
  | .invalidFrames _ cause => [cause.message]
  | .invalidCycles _ cause => [cause.message]
  | _ => []

end OptionError

namespace Options

/-- What the arguments read so far ask for; there may be no cartridge file yet. -/
structure Draft where
  rom : Option String := none
  purpose : Purpose := .frames defaultFrames
  maxCycles : Nat := defaultMaxCycles
  dumpFrame : Option String := none

namespace Draft

/-- Takes the value of an option. -/
def setValue (draft : Draft) (option : ValueOption) (value : String) : Except OptionError Draft :=
  match option with
  | .frames =>
    match Text.Numeral.parse numberLimit value with
    | .ok count => .ok { draft with purpose := .frames count }
    | .error cause => .error (.invalidFrames value cause)
  | .maxCycles =>
    match Text.Numeral.parse numberLimit value with
    | .ok count => .ok { draft with maxCycles := count }
    | .error cause => .error (.invalidCycles value cause)
  | .dumpFrame => .ok { draft with dumpFrame := some value }

/-- Takes an argument that no option asks for. -/
def accept (draft : Draft) (argument : String) : Except OptionError Draft :=
  if argument = "--until-serial" then .ok { draft with purpose := .untilSerial }
  else if argument.startsWith "--" then .error (.unknownOption argument)
  else if draft.rom.isSome then .error (.unexpectedArgument argument)
  else .ok { draft with rom := some argument }

/-- Reads the arguments that are left. -/
def extend (draft : Draft) : List String → Except OptionError Draft
  | [] => .ok draft
  | argument :: rest =>
    match ValueOption.ofText? argument with
    | some option =>
      match rest with
      | [] => .error (.missingValue option)
      | value :: rest =>
        match draft.setValue option value with
        | .ok draft => draft.extend rest
        | .error fault => .error fault
    | none =>
      match draft.accept argument with
      | .ok draft => draft.extend rest
      | .error fault => .error fault

end Draft

/-- What a command line asks for; the name of the program is not among the arguments. -/
def parse (arguments : List String) : Except OptionError Options :=
  match Draft.extend {} arguments with
  | .error fault => .error fault
  | .ok ⟨none, _, _, _⟩ => .error .noRom
  | .ok ⟨some rom, purpose, maxCycles, dumpFrame⟩ => .ok ⟨rom, purpose, maxCycles, dumpFrame⟩

end Options

end DotMatrix
