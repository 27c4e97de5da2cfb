import DotMatrix.Cpu.Instruction

/-!
# Decoding

An opcode is three fields: `x` (bits 6 and 7) chooses a block, `z` (bits 0 to 2) a column of it and
`y` (bits 3 to 5) the operand, the condition or the operation. Where a column serves pairs, bit 3
alternates between two families and bits 4 and 5 choose the pair. Both decoders are total; the
eleven opcodes without a meaning decode to `Instruction.unused`. The processor looks opcodes up in
tables built from the decoders (`lookup_eq_decode`).
-/

namespace DotMatrix

/-! ## Fields -/

namespace Opcode

/-- Bits 6 and 7 of an opcode. -/
def x (opcode : UInt8) : Fin 4 := ⟨opcode.toNat / 64, by have := opcode.toNat_lt; omega⟩

/-- Bits 3 to 5 of an opcode. -/
def y (opcode : UInt8) : Fin 8 := ⟨opcode.toNat / 8 % 8, Nat.mod_lt _ (by decide)⟩

/-- Bits 0 to 2 of an opcode. -/
def z (opcode : UInt8) : Fin 8 := ⟨opcode.toNat % 8, Nat.mod_lt _ (by decide)⟩

end Opcode

/-- The operand with a number from 0 to 7. -/
def Operand.select : Fin 8 → Operand
  | 0 => .register .b
  | 1 => .register .c
  | 2 => .register .d
  | 3 => .register .e
  | 4 => .register .h
  | 5 => .register .l
  | 6 => .atHl
  | 7 => .register .a

/-- The operation with a number from 0 to 7. -/
def Arithmetic.select : Fin 8 → Arithmetic
  | 0 => .add
  | 1 => .adc
  | 2 => .sub
  | 3 => .sbc
  | 4 => .and
  | 5 => .xor
  | 6 => .or
  | 7 => .cp

/-- The shift with a number from 0 to 7. -/
def Shift.select : Fin 8 → Shift
  | 0 => .rlc
  | 1 => .rrc
  | 2 => .rl
  | 3 => .rr
  | 4 => .sla
  | 5 => .sra
  | 6 => .swap
  | 7 => .srl

namespace Instruction

/-! ## Decoders -/

/-- The instructions of the first block: `y` alone chooses in columns 0 and 7, a pair and bit 3 in
columns 1 to 3. -/
def decodeFirst (z : Fin 8) (y : Fin 8) : Instruction :=
  match z, y with
  | 0, 0 => .nop
  | 0, 1 => .storeSp
  | 0, 2 => .stop
  | 0, 3 => .jumpRelative none
  | 0, 4 => .jumpRelative (some .notZero)
  | 0, 5 => .jumpRelative (some .zero)
  | 0, 6 => .jumpRelative (some .notCarry)
  | 0, 7 => .jumpRelative (some .carry)
  | 1, 0 => .loadWord (.pair .bc)
  | 1, 1 => .addHl (.pair .bc)
  | 1, 2 => .loadWord (.pair .de)
  | 1, 3 => .addHl (.pair .de)
  | 1, 4 => .loadWord (.pair .hl)
  | 1, 5 => .addHl (.pair .hl)
  | 1, 6 => .loadWord .sp
  | 1, 7 => .addHl .sp
  | 2, 0 => .storeA (.pointer .bc)
  | 2, 1 => .loadA (.pointer .bc)
  | 2, 2 => .storeA (.pointer .de)
  | 2, 3 => .loadA (.pointer .de)
  | 2, 4 => .storeA (.pointer .hlUp)
  | 2, 5 => .loadA (.pointer .hlUp)
  | 2, 6 => .storeA (.pointer .hlDown)
  | 2, 7 => .loadA (.pointer .hlDown)
  | 3, 0 => .incWord (.pair .bc)
  | 3, 1 => .decWord (.pair .bc)
  | 3, 2 => .incWord (.pair .de)
  | 3, 3 => .decWord (.pair .de)
  | 3, 4 => .incWord (.pair .hl)
  | 3, 5 => .decWord (.pair .hl)
  | 3, 6 => .incWord .sp
  | 3, 7 => .decWord .sp
  | 4, y => .inc (.select y)
  | 5, y => .dec (.select y)
  | 6, y => .load (.select y) .immediate
  | 7, 0 => .rotateA .rlc
  | 7, 1 => .rotateA .rrc
  | 7, 2 => .rotateA .rl
  | 7, 3 => .rotateA .rr
  | 7, 4 => .daa
  | 7, 5 => .cpl
  | 7, 6 => .scf
  | 7, 7 => .ccf

/-- The instructions of the last block. -/
def decodeLast (z : Fin 8) (y : Fin 8) : Instruction :=
  match z, y with
  | 0, 0 => .ret (some .notZero)
  | 0, 1 => .ret (some .zero)
  | 0, 2 => .ret (some .notCarry)
  | 0, 3 => .ret (some .carry)
  | 0, 4 => .storeA .high
  | 0, 5 => .addSp
  | 0, 6 => .loadA .high
  | 0, 7 => .hlFromSp
  | 1, 0 => .pop (.pair .bc)
  | 1, 1 => .ret none
  | 1, 2 => .pop (.pair .de)
  | 1, 3 => .reti
  | 1, 4 => .pop (.pair .hl)
  | 1, 5 => .jumpHl
  | 1, 6 => .pop .af
  | 1, 7 => .spFromHl
  | 2, 0 => .jump (some .notZero)
  | 2, 1 => .jump (some .zero)
  | 2, 2 => .jump (some .notCarry)
  | 2, 3 => .jump (some .carry)
  | 2, 4 => .storeA .highC
  | 2, 5 => .storeA .absolute
  | 2, 6 => .loadA .highC
  | 2, 7 => .loadA .absolute
  | 3, 0 => .jump none
  | 3, 1 => .extended
  | 3, 6 => .di
  | 3, 7 => .ei
  | 3, _ => .unused
  | 4, 0 => .call (some .notZero)
  | 4, 1 => .call (some .zero)
  | 4, 2 => .call (some .notCarry)
  | 4, 3 => .call (some .carry)
  | 4, _ => .unused
  | 5, 0 => .push (.pair .bc)
  | 5, 1 => .call none
  | 5, 2 => .push (.pair .de)
  | 5, 4 => .push (.pair .hl)
  | 5, 6 => .push .af
  | 5, _ => .unused
  | 6, y => .arithmetic (.select y) .immediate
  | 7, y => .restart y

/-- The instruction of an opcode. -/
def decode (opcode : UInt8) : Instruction :=
  match Opcode.x opcode with
  | 0 => decodeFirst (Opcode.z opcode) (Opcode.y opcode)
  | 1 =>
    if opcode = 0x76 then .halt
    else .load (.select (Opcode.y opcode)) (.operand (.select (Opcode.z opcode)))
  | 2 => .arithmetic (.select (Opcode.y opcode)) (.operand (.select (Opcode.z opcode)))
  | 3 => decodeLast (Opcode.z opcode) (Opcode.y opcode)

/-- The instructions of all opcodes. -/
def table : Vector Instruction 256 := Vector.ofFn fun opcode => decode (.ofFin opcode)

/-- The instruction of an opcode, from the table. -/
def lookup (opcode : UInt8) : Instruction := table[opcode.toFin]

theorem lookup_eq_decode (opcode : UInt8) : lookup opcode = decode opcode := by
  simp [lookup, table]

end Instruction

namespace BitInstruction

/-- The instruction of the byte after an `Instruction.extended`. -/
def decode (opcode : UInt8) : BitInstruction :=
  let operand := Operand.select (Opcode.z opcode)
  match Opcode.x opcode with
  | 0 => .shift (.select (Opcode.y opcode)) operand
  | 1 => .test (Opcode.y opcode) operand
  | 2 => .reset (Opcode.y opcode) operand
  | 3 => .set (Opcode.y opcode) operand

/-- The instructions of all bytes after an `Instruction.extended`. -/
def table : Vector BitInstruction 256 := Vector.ofFn fun opcode => decode (.ofFin opcode)

/-- The instruction of a byte after an `Instruction.extended`, from the table. -/
def lookup (opcode : UInt8) : BitInstruction := table[opcode.toFin]

theorem lookup_eq_decode (opcode : UInt8) : lookup opcode = decode opcode := by
  simp [lookup, table]

end BitInstruction

end DotMatrix
