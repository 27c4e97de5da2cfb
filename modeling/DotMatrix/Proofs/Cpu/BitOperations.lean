import DotMatrix.Proofs.Cpu.ByteArithmetic

/-!
# Shifts and single bits

An opcode with a byte behind it rotates or shifts a byte, tests a bit of it, or clears or sets one.
Four more opcodes rotate the accumulator. What each of these is to make of a byte is said by the
positions of its bits, or as a number where the shift is a multiplication or a division. Through the
carry, a rotation is one of nine bits.

Results:
1. `Alu.flags_testBit`, `Alu.testBit_or_bitMask`, `Alu.testBit_and_not_bitMask`: single bits.
2. `Alu.met_shifted`: rotations and shifts.
3. `Cpu.bit_operations`: the instructions, by opcode.
-/

namespace DotMatrix

open Memory

/-! ## What is asked for -/

namespace Shift

/-- What a shift makes of a byte and the carry: a byte and the bit that leaves. -/
def Moves (shift : Shift) (carry : Bool) (value result : UInt8) (out : Bool) : Prop :=
  let word := BitVec.ofBool carry ++ value.toBitVec
  let x := value.toNat
  match shift with
  | .rlc => result.toBitVec = value.toBitVec.rotateLeft 1 ∧ out = x.testBit 7
  | .rrc => result.toBitVec = value.toBitVec.rotateRight 1 ∧ out = x.testBit 0
  | .rl => BitVec.ofBool out ++ result.toBitVec = word.rotateLeft 1
  | .rr => BitVec.ofBool out ++ result.toBitVec = word.rotateRight 1
  | .sla => result.toNat = 2 * x % 256 ∧ out = x.testBit 7
  | .sra => result.toNat = x / 2 + 128 * (x / 128) ∧ out = x.testBit 0
  | .swap => result.toNat = 16 * (x % 16) + x / 16 ∧ out = false
  | .srl => result.toNat = x / 2 ∧ out = x.testBit 0

/-- A byte and flags are those that a shift is to leave. -/
structure Met (shift : Shift) (carry : Bool) (value result : UInt8) (flags : Flags) : Prop where
  moves : shift.Moves carry value result flags.carry
  zero : flags.zero = true ↔ result = 0
  subtract : flags.subtract = false
  halfCarry : flags.halfCarry = false

end Shift

/-! ## Single bits -/

namespace Alu

variable (bit : Fin 8) (value : UInt8)

theorem toBitVec_bitMask : (bitMask bit).toBitVec = BitVec.twoPow 8 bit := by
  revert bit
  decide

theorem getLsbD_bitMask (i : ℕ) : (bitMask bit).toBitVec.getLsbD i = decide ((bit : ℕ) = i) := by
  rw [toBitVec_bitMask, BitVec.getLsbD_twoPow, decide_eq_true bit.isLt, Bool.true_and]

/-- A bit is found with the mask of it alone. -/
theorem and_bitMask_beq_zero : (value &&& bitMask bit == 0) = !value.toNat.testBit bit := by
  have set : (BitVec.twoPow 8 bit : BitVec 8) ≠ 0 := by
    revert bit
    decide
  have found : value.toNat.testBit bit = value.toBitVec.getLsbD bit := rfl
  rw [Bool.eq_iff_iff, beq_iff_eq, ← UInt8.toBitVec_inj, UInt8.toBitVec_and, toBitVec_bitMask,
    BitVec.and_twoPow, found]
  cases value.toBitVec.getLsbD bit with
  | true => simpa using set
  | false => simp

theorem testBit_or_bitMask (i : ℕ) :
    (value ||| bitMask bit).toNat.testBit i = if i = bit then true else value.toNat.testBit i := by
  change (value.toBitVec ||| (bitMask bit).toBitVec).getLsbD i =
    if i = bit then true else value.toBitVec.getLsbD i
  rw [BitVec.getLsbD_or, getLsbD_bitMask]
  grind

theorem testBit_and_not_bitMask (i : ℕ) :
    (value &&& ~~~bitMask bit).toNat.testBit i =
      if i = bit then false else value.toNat.testBit i := by
  have outside := value.toBitVec.getLsbD_of_ge i
  change (value.toBitVec &&& ~~~(bitMask bit).toBitVec).getLsbD i =
    if i = bit then false else value.toBitVec.getLsbD i
  rw [BitVec.getLsbD_and, BitVec.getLsbD_not, getLsbD_bitMask]
  grind

theorem flags_testBit (flags : Flags) :
    let tested := testBit flags bit value
    tested.zero = !value.toNat.testBit bit ∧ tested.subtract = false ∧ tested.halfCarry = true ∧
      tested.carry = flags.carry := by
  simp [testBit, and_bitMask_beq_zero]

end Alu

/-! ## Rotations and shifts -/

namespace Alu

variable (shift : Shift) (flags : Flags) (value : UInt8)

theorem topBit_eq : (value &&& 0x80 != 0) = value.toNat.testBit 7 := by
  have found := and_bitMask_beq_zero 7 value
  rw [bne, show (0x80 : UInt8) = bitMask 7 from rfl, found, Bool.not_not]
  rfl

theorem lowBit_eq : (value &&& 0x01 != 0) = value.toNat.testBit 0 := by
  have found := and_bitMask_beq_zero 0 value
  rw [bne, show (0x01 : UInt8) = bitMask 0 from rfl, found, Bool.not_not]
  rfl

theorem rotateLeft_through (carry : Bool) :
    BitVec.ofBool (value &&& 0x80 != 0) ++ (value <<< 1 ||| if carry then 0x01 else 0).toBitVec =
      (BitVec.ofBool carry ++ value.toBitVec).rotateLeft 1 := by
  revert value
  cases carry <;> exact BitField.forall_byte (by decide +kernel)

theorem rotateRight_through (carry : Bool) :
    BitVec.ofBool (value &&& 0x01 != 0) ++ (value >>> 1 ||| if carry then 0x80 else 0).toBitVec =
      (BitVec.ofBool carry ++ value.toBitVec).rotateRight 1 := by
  revert value
  cases carry <;> exact BitField.forall_byte (by decide +kernel)

/-- The top bit that is kept counts 128. -/
theorem toNat_halve_signed :
    (value >>> 1 ||| (value &&& 0x80)).toNat = value.toNat / 2 + 128 * (value.toNat / 128) := by
  revert value
  exact BitField.forall_byte (by decide +kernel)

theorem toNat_exchange :
    (value <<< 4 ||| value >>> 4).toNat = 16 * (value.toNat % 16) + value.toNat / 16 := by
  revert value
  exact BitField.forall_byte (by decide +kernel)

theorem moves_shiftOut (carry : Bool) :
    shift.Moves carry value (shiftOut shift carry value).1 (shiftOut shift carry value).2 := by
  cases shift with
  | rlc => exact ⟨rfl, topBit_eq value⟩
  | rrc => exact ⟨rfl, lowBit_eq value⟩
  | rl => exact rotateLeft_through value carry
  | rr => exact rotateRight_through value carry
  | sla =>
    refine ⟨?_, topBit_eq value⟩
    simp [shiftOut, Nat.shiftLeft_eq, Nat.mul_comm]
  | sra => exact ⟨toNat_halve_signed value, lowBit_eq value⟩
  | swap => exact ⟨toNat_exchange value, rfl⟩
  | srl =>
    refine ⟨?_, lowBit_eq value⟩
    simp [shiftOut, Nat.shiftRight_eq_div_pow]

theorem met_shifted :
    shift.Met flags.carry value (shifted shift flags value).1 (shifted shift flags value).2 where
  moves := by
    simp only [shifted, Flags.carry_ofConditions]
    exact moves_shiftOut shift value flags.carry
  zero := by simp [shifted]
  subtract := by simp [shifted]
  halfCarry := by simp [shifted]

end Alu

/-! ## Opcodes -/

/-- What is done to an operand, by its number: a shift, a test, a reset or a set. -/
def BitInstruction.select (operation : Fin 4) (number : Fin 8) (operand : Operand) :
    BitInstruction :=
  match operation with
  | 0 => .shift (.select number) operand
  | 1 => .test number operand
  | 2 => .reset number operand
  | 3 => .set number operand

/-- In the byte behind the prefix, the upper two bits choose what is done, and the operand's number
is below that of the shift or of the bit. -/
theorem BitInstruction.lookup_fields {second : UInt8} (operation : Fin 4) (number place : Fin 8)
    (stands : second.toNat = 64 * operation + 8 * number + place) :
    lookup second = select operation number (.select place) := by
  have upper : Opcode.x second = operation := Fin.ext (by simp only [Opcode.x]; omega)
  have middle : Opcode.y second = number := Fin.ext (by simp only [Opcode.y]; omega)
  have lower : Opcode.z second = place := Fin.ext (by simp only [Opcode.z]; omega)
  rw [lookup_eq_decode, decode, upper, middle, lower]
  rfl

namespace Shift

/-- Behind the prefix, the byte that shifts the byte with number 0; those for the other bytes follow
it. -/
def code : Shift → ℕ
  | .rlc => 0x00
  | .rrc => 0x08
  | .rl => 0x10
  | .rr => 0x18
  | .sla => 0x20
  | .sra => 0x28
  | .swap => 0x30
  | .srl => 0x38

/-- The opcode that rotates the accumulator, for the four rotations: RLCA, RRCA, RLA and RRA. -/
def accumulatorOpcode : Shift → Option ℕ
  | .rlc => some 0x07
  | .rrc => some 0x0F
  | .rl => some 0x17
  | .rr => some 0x1F
  | _ => none

end Shift

theorem BitInstruction.decode_shift (shift : Shift) : ∀ place : Fin 8,
    decode (.ofNat (shift.code + place)) = .shift shift (.select place) := by
  cases shift <;> decide

theorem Instruction.decode_rotateA {shift : Shift} {opcode : ℕ}
    (rotates : shift.accumulatorOpcode = some opcode) :
    decode (.ofNat opcode) = .rotateA shift := by
  cases shift <;> cases rotates <;> rfl

/-! ## Steps -/

namespace Cpu

variable {μ : Type} [Memory μ] {cpu : Cpu} {memory : μ}

/-- The step of a prefix with the byte behind it. -/
theorem Fetches.step_extended (fetches : cpu.Fetches memory .extended) :
    let instruction := BitInstruction.lookup (load memory (cpu.registers.pc + 1))
    let after := cpu.step.run memory
    (after.1.2.registers, after.2) =
      (executeBit { cpu.registers with pc := cpu.registers.pc + 2 } instruction).run memory := by
  have next : cpu.registers.pc + 1 + 1 = cpu.registers.pc + 2 := UInt16.add_assoc _ _ _
  dsimp only
  rw [fetches.run_step (by rintro ⟨⟩)]
  simp [execute, fetched, next]

theorem fetches_extended (running : cpu.locked = false) (awake : ¬ cpu.Waits memory)
    (prefixed : load memory cpu.registers.pc = 0xCB) : cpu.Fetches memory .extended where
  running := running
  awake := awake
  opcode := by
    rw [prefixed, Instruction.lookup_eq_decode]
    rfl

/-- The fields of the byte behind the prefix say what is done to which operand. -/
theorem step_prefixed (running : cpu.locked = false) (awake : ¬ cpu.Waits memory)
    (prefixed : load memory cpu.registers.pc = 0xCB) (operation : Fin 4) (number place : Fin 8)
    (stands : (load memory (cpu.registers.pc + 1)).toNat = 64 * operation + 8 * number + place) :
    let instruction := BitInstruction.select operation number (.select place)
    let after := cpu.step.run memory
    (after.1.2.registers, after.2) =
      (executeBit { cpu.registers with pc := cpu.registers.pc + 2 } instruction).run memory := by
  rw [← BitInstruction.lookup_fields operation number place stands]
  exact (fetches_extended running awake prefixed).step_extended

section

variable (memory) (registers : Registers) (pc : UInt16) (operand : Operand) (bit : Fin 8)

theorem run_executeBit_shift (shift : Shift) :
    let outcome := Alu.shifted shift registers.f (operand.value registers memory)
    (executeBit { registers with pc } (.shift shift operand)).run memory =
      operand.put { registers with f := outcome.2, pc } memory outcome.1 := by
  simp [executeBit, Operand.run_read, Operand.run_write, Operand.value_mk]

theorem run_executeBit_test :
    (executeBit { registers with pc } (.test bit operand)).run memory =
      ({ registers with
          f := Alu.testBit registers.f bit (operand.value registers memory), pc }, memory) := by
  simp [executeBit, Operand.run_read, Operand.value_mk]

theorem run_executeBit_reset :
    (executeBit { registers with pc } (.reset bit operand)).run memory =
      operand.put { registers with pc } memory
        (operand.value registers memory &&& ~~~Alu.bitMask bit) := by
  simp [executeBit, Operand.run_read, Operand.run_write, Operand.value_mk]

theorem run_executeBit_set :
    (executeBit { registers with pc } (.set bit operand)).run memory =
      operand.put { registers with pc } memory
        (operand.value registers memory ||| Alu.bitMask bit) := by
  simp [executeBit, Operand.run_read, Operand.run_write, Operand.value_mk]

end

theorem Fetches.step_rotateA {shift : Shift} (fetches : cpu.Fetches memory (.rotateA shift)) :
    let outcome := Alu.shifted shift cpu.registers.f cpu.registers.a
    let after := cpu.step.run memory
    after.1.2.registers = { cpu.registers with
      a := outcome.1, f := outcome.2.withZero false, pc := cpu.registers.pc + 1 } ∧
      after.2 = memory := by
  dsimp only
  rw [fetches.run_step (by rintro ⟨⟩)]
  exact ⟨rfl, rfl⟩

/-- The byte behind the prefix that stands for a shift. -/
theorem step_shift (running : cpu.locked = false) (awake : ¬ cpu.Waits memory)
    (prefixed : load memory cpu.registers.pc = 0xCB) (shift : Shift) (place : Fin 8)
    (stands : (load memory (cpu.registers.pc + 1)).toNat = shift.code + place) :
    let outcome := Alu.shifted shift cpu.registers.f (cpu.registers.byte memory place)
    let after := cpu.step.run memory
    (after.1.2.registers, after.2) =
      { cpu.registers with f := outcome.2, pc := cpu.registers.pc + 2 }.withByte memory outcome.1
        place := by
  have looked : BitInstruction.lookup (load memory (cpu.registers.pc + 1)) =
      .shift shift (.select place) := by
    rw [BitInstruction.lookup_eq_decode, ← BitInstruction.decode_shift shift place, ← stands,
      UInt8.ofNat_toNat]
  have step := (fetches_extended running awake prefixed).step_extended
  have run := run_executeBit_shift memory cpu.registers (cpu.registers.pc + 2) (.select place) shift
  rw [looked] at step
  rw [Operand.value_select] at run
  exact step.trans (run.trans (Operand.put_select _ _ _ place))

/-- Rotations, shifts and single bits as instructions, on the byte of any operand. A shift puts what
it makes of the byte, and of the carry before it, back to where the byte stands. A test only sets
flags; the carry stays. Resetting or setting a bit changes no other bit and no flag. The rotations of
the accumulator do what those behind the prefix do, but for the zero flag, which is always clear. -/
theorem bit_operations (running : cpu.locked = false) (awake : ¬ cpu.Waits memory) :
    let registers := cpu.registers
    let behind := { registers with pc := registers.pc + 2 }
    let opcode := load memory registers.pc
    let second := (load memory (registers.pc + 1)).toNat
    let after := cpu.step.run memory
    let left := after.1.2.registers
    (opcode = 0xCB → ∀ place : Fin 8,
      let value := registers.byte memory place
      (∀ shift : Shift, second = shift.code + place →
        ∃ result flags, shift.Met registers.f.carry value result flags ∧
          (left, after.2) = { behind with f := flags }.withByte memory result place) ∧
      ∀ number : Fin 8,
        let becomes (set : Bool) := ∃ result : UInt8,
          (∀ i, result.toNat.testBit i = if i = number then set else value.toNat.testBit i) ∧
            (left, after.2) = behind.withByte memory result place
        (second = 0x40 + 8 * number + place →
          left = { behind with f := left.f } ∧ after.2 = memory ∧
            left.f.zero = !value.toNat.testBit number ∧ left.f.subtract = false ∧
            left.f.halfCarry = true ∧ left.f.carry = registers.f.carry) ∧
        (second = 0x80 + 8 * number + place → becomes false) ∧
        (second = 0xC0 + 8 * number + place → becomes true)) ∧
    ∀ shift : Shift, shift.accumulatorOpcode = some opcode.toNat →
      left.f.zero = false ∧
      left = { registers with a := left.a, f := left.f, pc := registers.pc + 1 } ∧
      after.2 = memory ∧
      ∀ other : μ, ¬ cpu.Waits other → load other registers.pc = 0xCB →
        (load other (registers.pc + 1)).toNat = shift.code + 7 →
        let prefixed := (cpu.step.run other).1.2.registers
        left.a = prefixed.a ∧ left.f.subtract = prefixed.f.subtract ∧
          left.f.halfCarry = prefixed.f.halfCarry ∧ left.f.carry = prefixed.f.carry := by
  intro registers behind opcode second after left
  refine ⟨fun prefixed place => ?prefixed, fun shift rotates => ?accumulator⟩
  case prefixed =>
    intro value
    have step := step_prefixed running awake prefixed
    refine ⟨fun shift stands => ?shift, fun number => ?bits⟩
    case shift =>
      have shifted := Alu.met_shifted shift registers.f value
      exact ⟨_, _, shifted, step_shift running awake prefixed shift place stands⟩
    case bits =>
      intro becomes
      have found : (Operand.select place).value registers memory = value :=
        Operand.value_select registers memory place
      have put (byte : UInt8) : (Operand.select place).put behind memory byte =
          behind.withByte memory byte place := Operand.put_select behind memory byte place
      refine ⟨fun stands => ?test, fun stands => ?reset, fun stands => ?set⟩
      case test =>
        have run := run_executeBit_test memory registers behind.pc (.select place) number
        obtain ⟨changed, kept⟩ := Prod.mk.inj ((step 1 number place stands).trans run)
        have flags : left.f = _ := congrArg Registers.f changed
        rw [found] at changed flags
        rw [flags]
        exact ⟨changed, kept, Alu.flags_testBit number value registers.f⟩
      case reset =>
        have run := run_executeBit_reset memory registers behind.pc (.select place) number
        rw [found, put] at run
        exact ⟨_, Alu.testBit_and_not_bitMask number value, (step 2 number place stands).trans run⟩
      case set =>
        have run := run_executeBit_set memory registers behind.pc (.select place) number
        rw [found, put] at run
        exact ⟨_, Alu.testBit_or_bitMask number value, (step 3 number place stands).trans run⟩
  case accumulator =>
    have decoded := Instruction.decode_rotateA rotates
    obtain ⟨changed, kept⟩ := (fetches_of_toNat running awake rfl decoded).step_rotateA
    have flags : left.f = _ := congrArg Registers.f changed
    have accumulator : left.a = _ := congrArg Registers.a changed
    refine ⟨?_, ?_, kept, fun other awake' prefixed stands => ?_⟩
    · rw [flags]
      exact Flags.zero_withZero _ false
    · rw [accumulator, flags]
      exact changed
    · intro prefixedLeft
      have step := step_shift running awake' prefixed shift 7 stands
      have registers' : prefixedLeft = _ := congrArg Prod.fst step
      rw [accumulator, flags, registers']
      simp [Registers.withByte, Registers.byte]

/-- The byte $81 at HL, shifted: SLA makes $02 of it, SRA $C0, SWAP $18 and SRL $40. -/
theorem bit_operations_at_hl :
    let program (second : UInt8) :=
      store (store (store FlatMemory.blank 0x0100 0xCB) 0x0101 second) 0x014D 0x81
    postBoot.locked = false ∧ (∀ second, ¬ postBoot.Waits (program second)) ∧
      (∀ second, load (program second) postBoot.registers.pc = 0xCB) ∧
      load (postBoot.step.run (program 0x26)).2 0x014D = 0x02 ∧
      load (postBoot.step.run (program 0x2E)).2 0x014D = 0xC0 ∧
      load (postBoot.step.run (program 0x36)).2 0x014D = 0x18 ∧
      load (postBoot.step.run (program 0x3E)).2 0x014D = 0x40 ∧
      (postBoot.step.run (program 0x26)).1.2.registers.f.carry = true ∧
      (postBoot.step.run (program 0x36)).1.2.registers.f.carry = false := by
  intro program
  have awake (second : UInt8) : ¬ postBoot.Waits (program second) := not_waits_of_awake rfl
  have hl : postBoot.registers.word 2 = 0x014D := by decide
  have prefixed (second : UInt8) : load (program second) postBoot.registers.pc = 0xCB := by
    simp [program, postBoot, Registers.postBoot, FlatMemory.load_store]
  have stands (second : UInt8) : load (program second) (postBoot.registers.pc + 1) = second := by
    simp [program, postBoot, Registers.postBoot, FlatMemory.load_store]
  have operand (second : UInt8) : postBoot.registers.byte (program second) 6 = 0x81 := by
    simp [Registers.byte, hl, program, FlatMemory.load_store]
  have shifted (second : UInt8) (shift : Shift) (code : second.toNat = shift.code + 6) :
      shift.Met true 0x81 (load (postBoot.step.run (program second)).2 0x014D)
        (postBoot.step.run (program second)).1.2.registers.f := by
    obtain ⟨behindPrefix, -⟩ := bit_operations rfl (awake second)
    obtain ⟨shifts, -⟩ := behindPrefix (prefixed second) 6
    obtain ⟨result, flags, met, put⟩ :=
      shifts shift ((congrArg UInt8.toNat (stands second)).trans code)
    obtain ⟨registers, stored⟩ := Prod.mk.inj put
    have found : load (postBoot.step.run (program second)).2 0x014D = result := by
      rw [stored, ← hl]
      exact (FlatMemory.load_store _ _ _ _).trans (if_pos rfl)
    rw [operand] at met
    rw [found, registers]
    exact met
  have left := (shifted 0x26 .sla rfl).moves
  have signed := (shifted 0x2E .sra rfl).moves
  have exchanged := (shifted 0x36 .swap rfl).moves
  have right := (shifted 0x3E .srl rfl).moves
  exact ⟨rfl, awake, prefixed, UInt8.toNat_inj.1 left.1, UInt8.toNat_inj.1 signed.1,
    UInt8.toNat_inj.1 exchanged.1, UInt8.toNat_inj.1 right.1, left.2, exchanged.2⟩

end Cpu

end DotMatrix
