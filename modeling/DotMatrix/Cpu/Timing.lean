import DotMatrix.Cpu.Instruction

/-!
# Timing

What an instruction costs in machine cycles, one cycle being four dots of the display. The cost is a
function of the instruction, not of the opcode: every byte moved over the bus takes a cycle, and some
instructions take cycles for themselves. A conditional transfer has the cost of falling through;
`takenPenalty` comes on top when it goes through.
-/

namespace DotMatrix

/-- The cycles that reading or writing an operand takes. -/
def Operand.cycles : Operand → Nat
  | .register _ => 0
  | .atHl => 1

/-- The cycles that reading a source takes. -/
def Source.cycles : Source → Nat
  | .operand place => place.cycles
  | .immediate => 1

/-- The cycles that reading the address of a place takes. -/
def Place.addressCycles : Place → Nat
  | .pointer _ => 0
  | .high => 1
  | .highC => 0
  | .absolute => 2

namespace Instruction

/-- The cycles of an instruction whose condition, if it has one, does not hold. -/
def cycles : Instruction → Nat
  | .nop => 1
  | .stop => 1
  | .halt => 1
  | .load target source => 1 + target.cycles + source.cycles
  | .loadWord _ => 3
  | .storeA place => 2 + place.addressCycles
  | .loadA place => 2 + place.addressCycles
  | .storeSp => 5
  | .spFromHl => 2
  | .hlFromSp => 3
  | .addSp => 4
  | .inc operand => 1 + 2 * operand.cycles
  | .dec operand => 1 + 2 * operand.cycles
  | .incWord _ => 2
  | .decWord _ => 2
  | .addHl _ => 2
  | .arithmetic _ source => 1 + source.cycles
  | .rotateA _ => 1
  | .daa => 1
  | .cpl => 1
  | .scf => 1
  | .ccf => 1
  | .jumpRelative none => 3
  | .jumpRelative (some _) => 2
  | .jump none => 4
  | .jump (some _) => 3
  | .jumpHl => 1
  | .call none => 6
  | .call (some _) => 3
  | .ret none => 4
  | .ret (some _) => 2
  | .reti => 4
  | .restart _ => 4
  | .push _ => 4
  | .pop _ => 3
  | .di => 1
  | .ei => 1
  | .extended => 1
  | .unused => 0

/-- The cycles that a conditional transfer takes more when its condition holds. -/
def takenPenalty : Instruction → Nat
  | .jumpRelative (some _) => 1
  | .jump (some _) => 1
  | .call (some _) => 3
  | .ret (some _) => 3
  | _ => 0

end Instruction

/-- The cycles of a bit instruction, without the cycle of the opcode before it. -/
def BitInstruction.cycles : BitInstruction → Nat
  | .shift _ operand => 1 + 2 * operand.cycles
  | .test _ operand => 1 + operand.cycles
  | .reset _ operand => 1 + 2 * operand.cycles
  | .set _ operand => 1 + 2 * operand.cycles

end DotMatrix
