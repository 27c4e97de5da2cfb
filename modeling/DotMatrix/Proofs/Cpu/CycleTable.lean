import DotMatrix.Cpu.Decode
import DotMatrix.Cpu.Timing

/-!
# The cycles by opcode

The cycles of an instruction are computed from its operands. Data sheets print them by opcode, and
these are such tables. Results: every entry is what is computed (`Instruction.cycles_lookup`,
`BitInstruction.cycles_lookup`, `Instruction.takenPenalty_lookup`).
-/

namespace DotMatrix

/-- The cycles of the opcodes, with a row for each upper half: those of a transfer that does not go
through, and of the prefix alone. -/
def cycleRows : Vector (Vector Nat 16) 16 := #v[
  #v[1, 3, 2, 2, 1, 1, 2, 1, 5, 2, 2, 2, 1, 1, 2, 1],
  #v[1, 3, 2, 2, 1, 1, 2, 1, 3, 2, 2, 2, 1, 1, 2, 1],
  #v[2, 3, 2, 2, 1, 1, 2, 1, 2, 2, 2, 2, 1, 1, 2, 1],
  #v[2, 3, 2, 2, 3, 3, 3, 1, 2, 2, 2, 2, 1, 1, 2, 1],
  #v[1, 1, 1, 1, 1, 1, 2, 1, 1, 1, 1, 1, 1, 1, 2, 1],
  #v[1, 1, 1, 1, 1, 1, 2, 1, 1, 1, 1, 1, 1, 1, 2, 1],
  #v[1, 1, 1, 1, 1, 1, 2, 1, 1, 1, 1, 1, 1, 1, 2, 1],
  #v[2, 2, 2, 2, 2, 2, 1, 2, 1, 1, 1, 1, 1, 1, 2, 1],
  #v[1, 1, 1, 1, 1, 1, 2, 1, 1, 1, 1, 1, 1, 1, 2, 1],
  #v[1, 1, 1, 1, 1, 1, 2, 1, 1, 1, 1, 1, 1, 1, 2, 1],
  #v[1, 1, 1, 1, 1, 1, 2, 1, 1, 1, 1, 1, 1, 1, 2, 1],
  #v[1, 1, 1, 1, 1, 1, 2, 1, 1, 1, 1, 1, 1, 1, 2, 1],
  #v[2, 3, 3, 4, 3, 4, 2, 4, 2, 4, 3, 1, 3, 6, 2, 4],
  #v[2, 3, 3, 0, 3, 4, 2, 4, 2, 4, 3, 0, 3, 0, 2, 4],
  #v[3, 3, 2, 0, 0, 4, 2, 4, 4, 1, 4, 0, 0, 0, 2, 4],
  #v[3, 3, 2, 1, 0, 4, 2, 4, 3, 2, 4, 1, 0, 0, 2, 4]]

/-- The cycles of an opcode. -/
def opcodeCycles (opcode : UInt8) : Nat :=
  have upper : opcode.toNat / 16 < 16 := Nat.div_lt_of_lt_mul opcode.toNat_lt
  have lower : opcode.toNat % 16 < 16 := Nat.mod_lt _ (by decide)
  cycleRows[opcode.toNat / 16][opcode.toNat % 16]

/-- The cycles of the byte after the prefix: more where it works on the byte at HL, most where it
writes it back. -/
def prefixedCycles (opcode : UInt8) : Nat :=
  if opcode &&& 0x07 = 6 then if opcode >>> 6 = 1 then 2 else 3 else 1

/-- The cycles that an opcode takes more when its condition holds. -/
def takenCycles (opcode : UInt8) : Nat :=
  if opcode.toNat ∈ [0x20, 0x28, 0x30, 0x38] then 1
  else if opcode.toNat ∈ [0xC2, 0xCA, 0xD2, 0xDA] then 1
  else if opcode.toNat ∈ [0xC4, 0xCC, 0xD4, 0xDC] then 3
  else if opcode.toNat ∈ [0xC0, 0xC8, 0xD0, 0xD8] then 3
  else 0

theorem Instruction.cycles_lookup (opcode : UInt8) :
    (lookup opcode).cycles = opcodeCycles opcode := by
  rw [lookup_eq_decode]
  revert opcode
  exact BitField.forall_byte (by decide +kernel)

theorem BitInstruction.cycles_lookup (opcode : UInt8) :
    (lookup opcode).cycles = prefixedCycles opcode := by
  rw [lookup_eq_decode]
  revert opcode
  exact BitField.forall_byte (by decide +kernel)

theorem Instruction.takenPenalty_lookup (opcode : UInt8) :
    (lookup opcode).takenPenalty = takenCycles opcode := by
  rw [lookup_eq_decode]
  revert opcode
  exact BitField.forall_byte (by decide +kernel)

end DotMatrix
