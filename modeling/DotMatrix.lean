import DotMatrix.CommandLine.Directory
import DotMatrix.Main
import DotMatrix.Memory.Plain
import DotMatrix.Proofs.Bus.Reading
import DotMatrix.Proofs.Cpu.Cost
import DotMatrix.Proofs.Cpu.Encoding
import DotMatrix.Proofs.Cpu.FlagRegister
import DotMatrix.Proofs.Cpu.Operands
import DotMatrix.Proofs.Cpu.Phases
import DotMatrix.Proofs.Machine.Budget
import DotMatrix.Proofs.Machine.LockStep
import DotMatrix.Proofs.Machine.SavedFlags
import DotMatrix.Proofs.Machine.Steps
import DotMatrix.Proofs.Video.Clock
import DotMatrix.Proofs.Video.Film
import DotMatrix.Proofs.Video.History
import DotMatrix.Proofs.Video.Picture
import DotMatrix.Proofs.Video.Presented
import DotMatrix.Proofs.Video.Registers
import DotMatrix.Proofs.Video.Signals
import DotMatrix.Proofs.Video.Sources
import DotMatrix.Proofs.Video.Steady
import DotMatrix.Proofs.Machine.SerialOutput
import DotMatrix.Proofs.Machine.Banner
import DotMatrix.Proofs.Machine.Resume
import DotMatrix.Proofs.Memory.Writes
import DotMatrix.Proofs.Cpu.Footprint
import DotMatrix.Proofs.Machine.History
import DotMatrix.Proofs.Machine.Rom
import DotMatrix.Proofs.Machine.PowerCycle
import DotMatrix.Proofs.Machine.SerialCapture
import DotMatrix.Proofs.Cpu.Stack
import DotMatrix.Proofs.Cpu.Calls
import DotMatrix.Proofs.Bus.Agreement
import DotMatrix.Proofs.Machine.HiddenDisplay
import DotMatrix.Proofs.Machine.Latches
import DotMatrix.Proofs.Machine.Standstill
import DotMatrix.Proofs.Video.Blanking
import DotMatrix.Proofs.Machine.Wake
import DotMatrix.Proofs.Cpu.Sums
import DotMatrix.Proofs.Cpu.ByteArithmetic
import DotMatrix.Proofs.Cpu.Decimal
import DotMatrix.Proofs.Video.Transitions
import DotMatrix.Proofs.Cpu.ProgramCounter
import DotMatrix.Proofs.Bounded.Checked
import DotMatrix.Proofs.Bounded.Memory
import DotMatrix.Proofs.Bounded.Alu
import DotMatrix.Proofs.Bounded.Processor
import DotMatrix.Proofs.Bounded.Line
import DotMatrix.Proofs.Bounded.Display
import DotMatrix.Proofs.Bounded.Machine
import DotMatrix.Proofs.Cpu.BitOperations
import DotMatrix.Proofs.Cpu.LongArithmetic
import DotMatrix.Proofs.Cpu.WordArithmetic
import DotMatrix.Proofs.Cpu.LongShifts
import DotMatrix.Proofs.Machine.SerialText
import DotMatrix.Proofs.CommandLine.Arguments
import DotMatrix.Proofs.Machine.Settings
import DotMatrix.Proofs.Video.Drawing
import DotMatrix.Proofs.Video.Shades
import DotMatrix.Proofs.Video.TileBytes
