import DotMatrix.Cpu.Instruction

/-!
# Listing

How instructions are written in listings and log records: the name of the family, then the operands
in parentheses. Opcodes of one family that differ in where a byte stands have names of their own
there (`Alu` and `AluImm`, `StoreA` and `StoreHigh`). A copy between operands names its two sides.
-/

namespace DotMatrix

/-- A name with its arguments in parentheses. -/
def listed (name : String) (arguments : List String) : String :=
  name ++ "(" ++ ", ".intercalate arguments ++ ")"

/-- The name of a byte register. -/
def ByteRegister.name : ByteRegister → String
  | .a => "A"
  | .b => "B"
  | .c => "C"
  | .d => "D"
  | .e => "E"
  | .h => "H"
  | .l => "L"

/-- The name of a pair. -/
def Pair.name : Pair → String
  | .bc => "BC"
  | .de => "DE"
  | .hl => "HL"

/-- An operand in a listing. -/
def Operand.listing : Operand → String
  | .register name => listed "Reg" [name.name]
  | .atHl => "IndirectHl"

/-- A word register in a listing. -/
def WordRegister.listing : WordRegister → String
  | .pair name => listed "Pair" [name.name]
  | .sp => "Sp"

/-- A word register of the stack instructions in a listing. -/
def StackRegister.listing : StackRegister → String
  | .pair name => listed "Pair" [name.name]
  | .af => "Af"

/-- A pointer in a listing. -/
def Pointer.listing : Pointer → String
  | .bc => "Bc"
  | .de => "De"
  | .hlUp => "HlIncrement"
  | .hlDown => "HlDecrement"

/-- A condition in a listing. -/
def Condition.listing : Condition → String
  | .notZero => "NotZero"
  | .zero => "Zero"
  | .notCarry => "NotCarry"
  | .carry => "Carry"

/-- The condition of a transfer in a listing, which may have none. -/
def Condition.guardListing : Option Condition → String
  | none => "None"
  | some condition => listed "Some" [condition.listing]

/-- An operation on the accumulator in a listing. -/
def Arithmetic.listing : Arithmetic → String
  | .add => "Add"
  | .adc => "Adc"
  | .sub => "Sub"
  | .sbc => "Sbc"
  | .and => "And"
  | .xor => "Xor"
  | .or => "Or"
  | .cp => "Cp"

/-- A shift in a listing. -/
def Shift.listing : Shift → String
  | .rlc => "Rlc"
  | .rrc => "Rrc"
  | .rl => "Rl"
  | .rr => "Rr"
  | .sla => "Sla"
  | .sra => "Sra"
  | .swap => "Swap"
  | .srl => "Srl"

namespace Instruction

/-- A transfer of the accumulator in a listing; `verb` says in which direction. -/
def transferListing (verb : String) : Place → String
  | .pointer pointer => listed (verb ++ "A") [pointer.listing]
  | .high => verb ++ "High"
  | .highC => verb ++ "HighC"
  | .absolute => verb ++ "Absolute"

/-- An instruction in a listing. -/
def listing : Instruction → String
  | .nop => "Nop"
  | .stop => "Stop"
  | .halt => "Halt"
  | .load target (.operand source) =>
      "Ld \x7b dst: " ++ target.listing ++ ", src: " ++ source.listing ++ " \x7d"
  | .load target .immediate => listed "LdImm" [target.listing]
  | .loadWord target => listed "Ld16Imm" [target.listing]
  | .storeA place => transferListing "Store" place
  | .loadA place => transferListing "Load" place
  | .storeSp => "StoreSp"
  | .spFromHl => "LdSpHl"
  | .hlFromSp => "LdHlSpOffset"
  | .addSp => "AddSpOffset"
  | .inc operand => listed "Inc" [operand.listing]
  | .dec operand => listed "Dec" [operand.listing]
  | .incWord register => listed "Inc16" [register.listing]
  | .decWord register => listed "Dec16" [register.listing]
  | .addHl register => listed "AddHl" [register.listing]
  | .arithmetic operation (.operand operand) => listed "Alu" [operation.listing, operand.listing]
  | .arithmetic operation .immediate => listed "AluImm" [operation.listing]
  | .rotateA shift => listed "RotateA" [shift.listing]
  | .daa => "Daa"
  | .cpl => "Cpl"
  | .scf => "Scf"
  | .ccf => "Ccf"
  | .jumpRelative guard => listed "Jr" [Condition.guardListing guard]
  | .jump guard => listed "Jp" [Condition.guardListing guard]
  | .jumpHl => "JpHl"
  | .call guard => listed "Call" [Condition.guardListing guard]
  | .ret guard => listed "Ret" [Condition.guardListing guard]
  | .reti => "Reti"
  | .restart number => listed "Rst" [toString (8 * number.val)]
  | .push register => listed "Push" [register.listing]
  | .pop register => listed "Pop" [register.listing]
  | .di => "Di"
  | .ei => "Ei"
  | .extended => "Prefix"
  | .unused => "Invalid"

end Instruction

/-- A bit instruction in a listing. -/
def BitInstruction.listing : BitInstruction → String
  | .shift kind operand => listed "Shift" [kind.listing, operand.listing]
  | .test bit operand => listed "Bit" [toString bit.val, operand.listing]
  | .reset bit operand => listed "Res" [toString bit.val, operand.listing]
  | .set bit operand => listed "Set" [toString bit.val, operand.listing]

end DotMatrix
