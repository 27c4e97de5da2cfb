import DotMatrix.Memory.Flat
import DotMatrix.Proofs.Cpu.Encoding
import DotMatrix.Proofs.Cpu.FlagRegister
import DotMatrix.Proofs.Cpu.Sums

/-!
# Arithmetic on bytes

Eight operations combine the accumulator with a byte, and two count a byte up or down. What they are
to leave is written down in plain numbers here, once for each operation and with no regard to where
the byte stands. The instructions are then shown to do it from every place that a byte can stand in.

Results:
1. `Alu.met_combine`, `Alu.met_increment`, `Alu.met_decrement`: the operations.
2. `Cpu.Applies.step`, `Cpu.Fetches.step_inc`, `Cpu.Fetches.step_dec`: the steps of their
   instructions.
3. `Cpu.byte_arithmetic`: all of it, by opcode.
-/

namespace DotMatrix

open Memory

/-! ## What is asked for -/

/-- What an operation on bytes is to leave, in plain numbers. -/
structure ByteRule where
  /-- The result, before it is cut down to a byte. -/
  total : ℤ
  /-- Whether the operation counts as a subtraction. -/
  subtracts : Bool
  /-- The lower half carries or borrows. -/
  halfCarry : Prop
  /-- The byte carries or borrows. -/
  carry : Prop

/-- A byte and flags are those that a rule asks for. -/
structure ByteRule.Met (rule : ByteRule) (result : UInt8) (flags : Flags) : Prop where
  total : (result.toNat : ℤ) = rule.total % 256
  zero : flags.zero = true ↔ result = 0
  subtract : flags.subtract = rule.subtracts
  halfCarry : flags.halfCarry = true ↔ rule.halfCarry
  carry : flags.carry = true ↔ rule.carry

namespace Arithmetic

/-- The carry that an operation takes in. -/
def carryIn (flags : Flags) : Arithmetic → ℕ
  | .adc | .sbc => flags.carry.toNat
  | _ => 0

/-- What an operation on the accumulator and a byte is to leave. -/
def rule (operation : Arithmetic) (flags : Flags) (a value : UInt8) : ByteRule :=
  let x := a.toNat
  let y := value.toNat
  let c := operation.carryIn flags
  match operation with
  | .add | .adc => ⟨x + y + c, false, 16 ≤ x % 16 + y % 16 + c, 256 ≤ x + y + c⟩
  | .sub | .sbc | .cp => ⟨x - y - c, true, x % 16 < y % 16 + c, x < y + c⟩
  | .and => ⟨(x &&& y : ℕ), false, true, false⟩
  | .xor => ⟨(x ^^^ y : ℕ), false, false, false⟩
  | .or => ⟨(x ||| y : ℕ), false, false, false⟩

end Arithmetic

namespace ByteRule

/-- Counting up keeps the carry. -/
def countUp (flags : Flags) (value : UInt8) : ByteRule :=
  ⟨value.toNat + 1, false, 16 ≤ value.toNat % 16 + 1, flags.carry = true⟩

/-- Counting down keeps the carry. -/
def countDown (flags : Flags) (value : UInt8) : ByteRule :=
  ⟨value.toNat - 1, true, value.toNat % 16 < 1, flags.carry = true⟩

end ByteRule

/-! ## The operations -/

namespace Alu

variable (flags : Flags) (a value : UInt8) {carryIn : UInt8}

theorem met_add (bit : carryIn.toNat ≤ 1) :
    ByteRule.Met ⟨a.toNat + value.toNat + carryIn.toNat, false,
      16 ≤ a.toNat % 16 + value.toNat % 16 + carryIn.toNat,
      256 ≤ a.toNat + value.toNat + carryIn.toNat⟩
      (add a value carryIn).1 (add a value carryIn).2 where
  total := by
    rw [toNat_add]
    push_cast
    rfl
  zero := by simp [add]
  subtract := by simp [add]
  halfCarry := by rw [halfCarry_add a value bit, decide_eq_true_eq]
  carry := by rw [carry_add a value bit, decide_eq_true_eq]

theorem met_subtract (bit : carryIn.toNat ≤ 1) :
    ByteRule.Met ⟨a.toNat - value.toNat - carryIn.toNat, true,
      a.toNat % 16 < value.toNat % 16 + carryIn.toNat,
      a.toNat < value.toNat + carryIn.toNat⟩
      (subtract a value carryIn).1 (subtract a value carryIn).2 where
  total := by
    have := value.toNat_lt
    rw [toNat_subtract a value bit]
    dsimp only
    omega
  zero := by simp [subtract]
  subtract := by simp [subtract]
  halfCarry := by rw [halfCarry_subtract a value bit, decide_eq_true_eq]
  carry := by rw [carry_subtract a value bit, decide_eq_true_eq]

theorem met_logical {result : UInt8} {bits : ℕ} (total : result.toNat = bits) (halfCarry : Bool) :
    ByteRule.Met ⟨bits, false, halfCarry, false⟩
      (logical result halfCarry).1 (logical result halfCarry).2 where
  total := by
    have := result.toNat_lt
    simp only [logical]
    omega
  zero := by simp [logical]
  subtract := by simp [logical]
  halfCarry := by simp [logical]
  carry := by simp [logical]

/-- A comparison sets the flags of a subtraction, though it finds them in its own way. -/
theorem compare_eq_subtract : compare a value = (subtract a value 0).2 := by
  have zero : (a == value) = (a - value - 0 == 0) := by
    rw [UInt8.sub_zero, Bool.eq_iff_iff, beq_iff_eq, beq_iff_eq, UInt8.sub_eq_iff_eq_add,
      UInt8.zero_add]
  have carry : decide (a < value) = decide (a.toUInt16 < value.toUInt16 + (0 : UInt8).toUInt16) := by
    simp [UInt8.lt_iff_toNat_lt, UInt16.lt_iff_toNat_lt]
  simp only [compare, subtract, zero, carry, UInt8.add_zero]

/-- An operation leaves what its rule asks for; only a comparison does not store its result. -/
theorem met_combine (operation : Arithmetic) :
    let outcome := combine operation flags a value
    ∃ result, (operation.rule flags a value).Met result outcome.2 ∧
      outcome.1 = if operation = .cp then a else result := by
  intro outcome
  have none : (0 : UInt8).toNat ≤ 1 := by decide
  have bit := flags.toNat_carryBit_le
  cases operation with
  | add => exact ⟨_, met_add a value none, rfl⟩
  | adc =>
    refine ⟨_, ?_, rfl⟩
    simp only [Arithmetic.rule, Arithmetic.carryIn, ← Flags.toNat_carryBit]
    exact met_add a value bit
  | sub => exact ⟨_, met_subtract a value none, rfl⟩
  | sbc =>
    refine ⟨_, ?_, rfl⟩
    simp only [Arithmetic.rule, Arithmetic.carryIn, ← Flags.toNat_carryBit]
    exact met_subtract a value bit
  | and => exact ⟨_, met_logical (a.toNat_and value) true, rfl⟩
  | xor => exact ⟨_, met_logical (a.toNat_xor value) false, rfl⟩
  | or => exact ⟨_, met_logical (a.toNat_or value) false, rfl⟩
  | cp =>
    refine ⟨(subtract a value 0).1, ?_, rfl⟩
    rw [show outcome.2 = _ from compare_eq_subtract a value]
    exact met_subtract a value none

theorem met_increment :
    (ByteRule.countUp flags value).Met (increment flags value).1 (increment flags value).2 where
  total := by
    simp only [increment, ByteRule.countUp, UInt8.toNat_add, UInt8.reduceToNat]
    omega
  zero := by simp [increment]
  subtract := by simp [increment, ByteRule.countUp]
  halfCarry := by
    simp only [increment, ByteRule.countUp, Flags.halfCarry_withHalfCarry, beq_iff_eq,
      ← UInt8.toNat_inj, toNat_and_fifteen, UInt8.reduceToNat]
    omega
  carry := by simp [increment, ByteRule.countUp]

theorem met_decrement :
    (ByteRule.countDown flags value).Met (decrement flags value).1 (decrement flags value).2 where
  total := by
    have := value.toNat_lt
    simp only [decrement, ByteRule.countDown, UInt8.toNat_sub, UInt8.reduceToNat]
    omega
  zero := by simp [decrement]
  subtract := by simp [decrement, ByteRule.countDown]
  halfCarry := by
    simp only [decrement, ByteRule.countDown, Flags.halfCarry_withHalfCarry, beq_iff_eq,
      ← UInt8.toNat_inj, toNat_and_fifteen, UInt8.reduceToNat]
    omega
  carry := by simp [decrement, ByteRule.countDown]

end Alu

/-! ## Opcodes -/

namespace Arithmetic

/-- The opcode of an operation on the byte with number 0; those on the other bytes follow it. -/
def opcode : Arithmetic → ℕ
  | .add => 0x80
  | .adc => 0x88
  | .sub => 0x90
  | .sbc => 0x98
  | .and => 0xA0
  | .xor => 0xA8
  | .or => 0xB0
  | .cp => 0xB8

/-- The opcode of an operation on the byte behind it. -/
def immediateOpcode : Arithmetic → ℕ
  | .add => 0xC6
  | .adc => 0xCE
  | .sub => 0xD6
  | .sbc => 0xDE
  | .and => 0xE6
  | .xor => 0xEE
  | .or => 0xF6
  | .cp => 0xFE

end Arithmetic

namespace Instruction

theorem decode_arithmetic (operation : Arithmetic) : ∀ place : Fin 8,
    decode (.ofNat (operation.opcode + place)) =
      .arithmetic operation (.operand (.select place)) := by
  cases operation <;> decide

theorem decode_arithmetic_immediate (operation : Arithmetic) :
    decode (.ofNat operation.immediateOpcode) = .arithmetic operation .immediate := by
  cases operation <;> decide

theorem decode_inc : ∀ place : Fin 8, decode (.ofNat (0x04 + 8 * place)) = .inc (.select place) := by
  decide

theorem decode_dec : ∀ place : Fin 8, decode (.ofNat (0x05 + 8 * place)) = .dec (.select place) := by
  decide

end Instruction

/-! ## Where the byte stands -/

section

variable {μ : Type} [Memory μ]

/-- The byte that a source stands for, when the program counter is behind the opcode. -/
def Source.value (registers : Registers) (memory : μ) : Source → UInt8
  | .operand place => place.value registers memory
  | .immediate => load memory registers.pc

theorem Source.value_read (source : Source) (registers : Registers) (memory : μ) :
    ((source.read registers).run memory).1.1 = source.value registers memory := by
  cases source with
  | operand place => simp [read, value, Operand.run_read]
  | immediate => rfl

/-- Reading a source moves the program counter at most. -/
theorem Source.registers_read (source : Source) (registers : Registers) (memory : μ) :
    let read := ((source.read registers).run memory).1.2
    read = { registers with pc := read.pc } := by
  cases source with
  | operand place => simp [read]
  | immediate => rfl

namespace Cpu

/-- At the program counter stands an opcode of an operation, and its operand is a byte: that in a
register or at HL, or the one behind the opcode. -/
inductive Applies (cpu : Cpu) (memory : μ) (operation : Arithmetic) : UInt8 → Prop where
  | operand (place : Fin 8) :
      (load memory cpu.registers.pc).toNat = operation.opcode + place →
      Applies cpu memory operation (cpu.registers.byte memory place)
  | immediate :
      (load memory cpu.registers.pc).toNat = operation.immediateOpcode →
      Applies cpu memory operation (load memory (cpu.registers.pc + 1))

variable {cpu : Cpu} {memory : μ} {operation : Arithmetic} {value : UInt8}

theorem Applies.fetches (applies : cpu.Applies memory operation value)
    (running : cpu.locked = false) (awake : ¬ cpu.Waits memory) :
    ∃ source, cpu.Fetches memory (.arithmetic operation source) ∧
      source.value cpu.fetched.registers memory = value := by
  cases applies with
  | operand place stands =>
    have decoded := Instruction.decode_arithmetic operation place
    refine ⟨_, fetches_of_toNat running awake stands decoded, ?_⟩
    exact (Operand.value_mk _ _ _ _ _ _).trans (Operand.value_select _ _ place)
  | immediate stands =>
    have decoded := Instruction.decode_arithmetic_immediate operation
    exact ⟨_, fetches_of_toNat running awake stands decoded, rfl⟩

/-! ## Steps -/

/-- The step of an operation, from wherever its operand comes. -/
theorem Applies.step (applies : cpu.Applies memory operation value)
    (running : cpu.locked = false) (awake : ¬ cpu.Waits memory) :
    let outcome := Alu.combine operation cpu.registers.f cpu.registers.a value
    let after := cpu.step.run memory
    let left := after.1.2.registers
    after.2 = memory ∧
      left = { cpu.registers with a := outcome.1, f := outcome.2, pc := left.pc } := by
  obtain ⟨source, fetches, rfl⟩ := applies.fetches running awake
  have kept := source.registers_read cpu.fetched.registers memory
  dsimp only at kept ⊢
  rw [fetches.run_step (by rintro ⟨⟩)]
  constructor
  · simp [execute, continueWith]
  · simp only [execute, continueWith, Transaction.run_bind, Transaction.run_pure,
      Source.memory_read, Source.value_read, setResult]
    rw [kept]
    rfl

theorem Fetches.step_inc {operand : Operand} (fetches : cpu.Fetches memory (.inc operand)) :
    let counted := Alu.increment cpu.registers.f (operand.value cpu.registers memory)
    let after := cpu.step.run memory
    (after.1.2.registers, after.2) =
      operand.put { cpu.registers with f := counted.2, pc := cpu.registers.pc + 1 } memory
        counted.1 := by
  dsimp only
  rw [fetches.run_step (by rintro ⟨⟩)]
  simp [execute, continueWith, fetched, Operand.run_read, Operand.run_write, Operand.value_mk]

theorem Fetches.step_dec {operand : Operand} (fetches : cpu.Fetches memory (.dec operand)) :
    let counted := Alu.decrement cpu.registers.f (operand.value cpu.registers memory)
    let after := cpu.step.run memory
    (after.1.2.registers, after.2) =
      operand.put { cpu.registers with f := counted.2, pc := cpu.registers.pc + 1 } memory
        counted.1 := by
  dsimp only
  rw [fetches.run_step (by rintro ⟨⟩)]
  simp [execute, continueWith, fetched, Operand.run_read, Operand.run_write, Operand.value_mk]

/-- The operations on the accumulator and a byte, and those that count a byte, as instructions. Each
leaves the result and the flags that its rule asks for, and nothing else changes but the program
counter; a comparison keeps the accumulator. Where the byte of an operation comes from makes no
difference. A byte that is counted goes back to where it stands. -/
theorem byte_arithmetic (running : cpu.locked = false) (awake : ¬ cpu.Waits memory) :
    let registers := cpu.registers
    let opcode := (load memory registers.pc).toNat
    let after := cpu.step.run memory
    let left := after.1.2.registers
    (∀ operation value, cpu.Applies memory operation value →
      after.2 = memory ∧
      (∃ result, (operation.rule registers.f registers.a value).Met result left.f ∧
        left = { registers with
          a := if operation = .cp then registers.a else result, f := left.f, pc := left.pc }) ∧
      ∀ (other : Cpu) (otherMemory : μ), other.locked = false → ¬ other.Waits otherMemory →
        other.Applies otherMemory operation value → other.registers.a = registers.a →
        other.registers.f = registers.f →
        let otherLeft := (other.step.run otherMemory).1.2.registers
        otherLeft.a = left.a ∧ otherLeft.f = left.f) ∧
    ∀ place : Fin 8,
      let value := registers.byte memory place
      let counts (rule : ByteRule) := ∃ result flags, rule.Met result flags ∧
        (left, after.2) =
          { registers with f := flags, pc := registers.pc + 1 }.withByte memory result place
      (opcode = 0x04 + 8 * place → counts (.countUp registers.f value)) ∧
      (opcode = 0x05 + 8 * place → counts (.countDown registers.f value)) := by
  intro registers opcode after left
  refine ⟨fun operation value applies => ?combines,
    fun place => ⟨fun stands => ?up, fun stands => ?down⟩⟩
  case combines =>
    obtain ⟨same, changed⟩ := applies.step running awake
    obtain ⟨result, met, stored⟩ := Alu.met_combine registers.f registers.a value operation
    have flags : left.f = _ := congrArg Registers.f changed
    have accumulator : left.a = _ := congrArg Registers.a changed
    refine ⟨same, ⟨result, flags ▸ met, ?_⟩, ?_⟩
    · rw [← stored, flags]
      exact changed
    · intro other otherMemory running' awake' applies' a f otherLeft
      obtain ⟨-, changed'⟩ := applies'.step running' awake'
      have flags' : otherLeft.f = _ := congrArg Registers.f changed'
      have accumulator' : otherLeft.a = _ := congrArg Registers.a changed'
      rw [accumulator, accumulator', flags, flags', a, f]
      exact ⟨rfl, rfl⟩
  case up =>
    have fetches := fetches_of_toNat running awake stands (Instruction.decode_inc place)
    have step := fetches.step_inc
    rw [Operand.value_select] at step
    exact ⟨_, _, Alu.met_increment _ _, step.trans (Operand.put_select _ _ _ place)⟩
  case down =>
    have fetches := fetches_of_toNat running awake stands (Instruction.decode_dec place)
    have step := fetches.step_dec
    rw [Operand.value_select] at step
    exact ⟨_, _, Alu.met_decrement _ _, step.trans (Operand.put_select _ _ _ place)⟩

/-- After the boot program A is $01 and the carry is set. ADC with $FF leaves A as it is, with both
carries, wherever $FF stands. SUB C takes $13 away, AND E leaves nothing of A, and CP H finds $01 and
keeps A. -/
theorem byte_arithmetic_families :
    let atHl := store (store FlatMemory.blank 0x0100 0x8E) 0x014D 0xFF
    let behind := store (store FlatMemory.blank 0x0100 0xCE) 0x0101 0xFF
    let program (opcode : UInt8) := store FlatMemory.blank 0x0100 opcode
    let sum := (postBoot.step.run atHl).1.2.registers
    let sum' := (postBoot.step.run behind).1.2.registers
    let difference := (postBoot.step.run (program 0x91)).1.2.registers
    let mask := (postBoot.step.run (program 0xA3)).1.2.registers
    let compared := (postBoot.step.run (program 0xBC)).1.2.registers
    postBoot.locked = false ∧ (∀ memory : FlatMemory, ¬ postBoot.Waits memory) ∧
      postBoot.Applies atHl .adc 0xFF ∧ postBoot.Applies behind .adc 0xFF ∧
      sum.a = 0x01 ∧ sum.f.halfCarry = true ∧ sum.f.carry = true ∧
      sum'.a = sum.a ∧ sum'.f = sum.f ∧
      postBoot.Applies (program 0x91) .sub 0x13 ∧ difference.a = 0xEE ∧
      difference.f.subtract = true ∧ difference.f.carry = true ∧
      postBoot.Applies (program 0xA3) .and 0xD8 ∧ mask.a = 0 ∧ mask.f.zero = true ∧
      mask.f.halfCarry = true ∧
      postBoot.Applies (program 0xBC) .cp 0x01 ∧ compared.a = 0x01 ∧ compared.f.zero = true := by
  intro atHl behind program sum sum' difference mask compared
  have awake (memory : FlatMemory) : ¬ postBoot.Waits memory := not_waits_of_awake rfl
  have hl : postBoot.registers.word 2 = 0x014D := by decide
  have stands : load atHl postBoot.registers.pc = 0x8E := by
    simp [atHl, postBoot, Registers.postBoot, FlatMemory.load_store]
  have stands' : load behind postBoot.registers.pc = 0xCE := by
    simp [behind, postBoot, Registers.postBoot, FlatMemory.load_store]
  have operand : postBoot.registers.byte atHl 6 = 0xFF := by
    simp [Registers.byte, hl, atHl, FlatMemory.load_store]
  have operand' : load behind (postBoot.registers.pc + 1) = 0xFF := by
    simp [behind, postBoot, Registers.postBoot, FlatMemory.load_store]
  have opcode (opcode : UInt8) : load (program opcode) postBoot.registers.pc = opcode := by
    simp [program, postBoot, Registers.postBoot, FlatMemory.load_store]
  have adds : postBoot.Applies atHl .adc 0xFF :=
    operand ▸ Applies.operand 6 (congrArg UInt8.toNat stands)
  have adds' : postBoot.Applies behind .adc 0xFF :=
    operand' ▸ Applies.immediate (congrArg UInt8.toNat stands')
  have subtracts : postBoot.Applies (program 0x91) .sub 0x13 :=
    .operand 1 (congrArg UInt8.toNat (opcode 0x91))
  have masks : postBoot.Applies (program 0xA3) .and 0xD8 :=
    .operand 3 (congrArg UInt8.toNat (opcode 0xA3))
  have compares : postBoot.Applies (program 0xBC) .cp 0x01 :=
    .operand 4 (congrArg UInt8.toNat (opcode 0xBC))
  obtain ⟨-, ⟨total, added, summed⟩, same⟩ := (byte_arithmetic rfl (awake atHl)).1 .adc 0xFF adds
  obtain ⟨a, f⟩ := same postBoot behind rfl (awake behind) adds' rfl rfl
  obtain ⟨-, ⟨rest, subtracted, taken⟩, -⟩ :=
    (byte_arithmetic rfl (awake (program 0x91))).1 .sub 0x13 subtracts
  obtain ⟨-, ⟨common, masked, cut⟩, -⟩ :=
    (byte_arithmetic rfl (awake (program 0xA3))).1 .and 0xD8 masks
  obtain ⟨-, ⟨nothing, found, kept⟩, -⟩ :=
    (byte_arithmetic rfl (awake (program 0xBC))).1 .cp 0x01 compares
  have total_eq : total = 0x01 := UInt8.toNat_inj.1 (Int.ofNat.inj added.total)
  have rest_eq : rest = 0xEE := UInt8.toNat_inj.1 (Int.ofNat.inj subtracted.total)
  have common_eq : common = 0 := UInt8.toNat_inj.1 (Int.ofNat.inj masked.total)
  have nothing_eq : nothing = 0 := UInt8.toNat_inj.1 (Int.ofNat.inj found.total)
  refine ⟨rfl, awake, adds, adds', (congrArg Registers.a summed).trans total_eq,
    added.halfCarry.2 (by decide : 16 ≤ 17), added.carry.2 (by decide : 256 ≤ 257), a, f,
    subtracts, (congrArg Registers.a taken).trans rest_eq, subtracted.subtract,
    subtracted.carry.2 (by decide : 1 < 19), masks, (congrArg Registers.a cut).trans common_eq,
    masked.zero.2 common_eq, masked.halfCarry.2 rfl, compares, congrArg Registers.a kept,
    found.zero.2 nothing_eq⟩

end Cpu

end

end DotMatrix
