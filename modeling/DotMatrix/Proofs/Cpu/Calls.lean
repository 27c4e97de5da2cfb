import DotMatrix.Proofs.Cpu.Stack

/-!
# Calls and returns

Six kinds of instruction work on the stack, and each of them does one operation: PUSH, CALL and RST
push a word, POP, RET and RETI pop one. So whatever holds of operations holds of programs, as long
as the instructions between leave the stack alone. A routine that gives back what it pushes returns
behind its call, however many calls it makes itself.

Results:
1. `Cpu.Fetches.step_stack`: the step of an instruction with an operation on the stack.
2. `Cpu.Runs.represents`: a run of a program does to the list of words what its operations do.
3. `Cpu.returns_behind_call`, `Cpu.Nest.run`: the return of a routine.
4. `stack_is_lifo`: all of it.
-/

namespace DotMatrix

open Memory StackOperation

/-! ## Instructions -/

namespace Instruction

/-- What an instruction does with the stack, from the registers before it, if it does anything. -/
def stackOperation (registers : Registers) : Instruction → Option StackOperation
  | .push register => some (.push (register.get registers))
  | .call guard =>
    if Condition.met guard registers.f then some (.push (registers.pc + 3)) else none
  | .restart _ => some (.push (registers.pc + 1))
  | .pop _ | .reti => some .pop
  | .ret guard => if Condition.met guard registers.f then some .pop else none
  | _ => none

/-- The registers after an instruction that works on the stack, from those that its operation
leaves, the word behind its opcode, and the word that is popped. -/
def afterStack (registers : Registers) (operand word : UInt16) : Instruction → Registers
  | .push _ => { registers with pc := registers.pc + 1 }
  | .call _ => { registers with pc := operand }
  | .restart number => { registers with pc := 8 * UInt16.ofNat number }
  | .pop register => register.set { registers with pc := registers.pc + 1 } word
  | .ret _ | .reti => { registers with pc := word }
  | _ => registers

/-- Whether an instruction returns from a routine. -/
def returns (flags : Flags) : Instruction → Bool
  | .ret guard => Condition.met guard flags
  | .reti => true
  | _ => false

end Instruction

namespace Instruction

theorem stackOperation_of_returns {instruction : Instruction} {registers : Registers}
    (returns : instruction.returns registers.f = true) :
    instruction.stackOperation registers = some .pop := by
  cases instruction with
  | ret guard => exact if_pos returns
  | reti => rfl
  | _ => cases returns

theorem afterStack_of_returns {instruction : Instruction} {flags : Flags}
    (returns : instruction.returns flags = true) (registers : Registers) (operand word : UInt16) :
    instruction.afterStack registers operand word = { registers with pc := word } := by
  cases instruction with
  | ret | reti => rfl
  | _ => cases returns

end Instruction

theorem StackRegister.get_withPc (register : StackRegister) (registers : Registers) (pc : UInt16) :
    register.get { registers with pc } = register.get registers := by
  cases register with
  | pair name => cases name <;> rfl
  | af => rfl

theorem Instruction.sp_afterStack (instruction : Instruction) (registers : Registers)
    (operand word : UInt16) :
    (instruction.afterStack registers operand word).sp = registers.sp := by
  cases instruction with
  | pop register =>
    cases register with
    | pair name => exact Registers.sp_setPair _ name word
    | af => rfl
  | _ => rfl

namespace Cpu

section

variable {μ : Type} [Memory μ] {cpu : Cpu} {memory : μ} {instruction : Instruction}

/-- An instruction leaves of the memory what its operation on the stack leaves; the word that is
popped goes where the instruction says, and the program goes on behind the instruction, at the start
of the routine, or behind the call of it. -/
theorem Fetches.step_stack (fetches : cpu.Fetches memory instruction) {operation : StackOperation}
    (performs : instruction.stackOperation cpu.registers = some operation) :
    let performed := (operation.perform cpu.registers).run memory
    let operand :=
      Word.join (load memory (cpu.registers.pc + 2)) (load memory (cpu.registers.pc + 1))
    let after := cpu.step.run memory
    after.2 = performed.2 ∧
      after.1.2.registers =
        instruction.afterStack performed.1.2 operand (performed.1.1.getD 0) := by
  intro performed operand after
  have valid : instruction ≠ .unused := by
    rintro rfl
    cases performs
  have run : after = _ := fetches.run_step valid
  have next : cpu.registers.pc + 1 + 1 = cpu.registers.pc + 2 := UInt16.add_assoc _ _ _
  have behind : cpu.registers.pc + 1 + 2 = cpu.registers.pc + 3 := UInt16.add_assoc _ _ _
  rw [run]
  cases instruction with
  | push register =>
    cases performs
    simp [performed, execute, continueWith, fetched, Instruction.afterStack,
      StackRegister.get_withPc]
  | call guard =>
    obtain ⟨met, pushed⟩ := Option.ite_none_right_eq_some.1 performs
    cases pushed
    simp [performed, operand, execute, fetched, Instruction.afterStack, met, next, behind]
  | restart number =>
    cases performs
    simp [performed, execute, continueWith, fetched, Instruction.afterStack]
  | pop register =>
    cases performs
    simp [performed, execute, continueWith, fetched, Instruction.afterStack]
  | ret guard =>
    obtain ⟨met, popped⟩ := Option.ite_none_right_eq_some.1 performs
    cases popped
    simp [performed, execute, fetched, Instruction.afterStack, met]
  | reti =>
    cases performs
    simp [performed, execute, fetched, Instruction.afterStack]
  | _ => cases performs

/-! ## Steps on a represented stack -/

variable {base : UInt16} {limit : Nat} {stack : List UInt16} {word : UInt16}

theorem Fetches.represents_pop (fetches : cpu.Fetches memory instruction)
    (performs : instruction.stackOperation cpu.registers = some .pop)
    (represents : Represents base memory cpu.registers.sp (word :: stack)) :
    let operand :=
      Word.join (load memory (cpu.registers.pc + 2)) (load memory (cpu.registers.pc + 1))
    let popped := { cpu.registers with sp := cellBelow base (2 * stack.length) }
    let after := cpu.step.run memory
    after.1.2.registers = instruction.afterStack popped operand word ∧ after.2 = memory ∧
      Represents base after.2 after.1.2.registers.sp stack := by
  intro operand popped after
  obtain ⟨same, registers⟩ := fetches.step_stack performs
  obtain ⟨taken, moved, -, left⟩ := represents.pop
  rw [run_perform_pop] at same registers
  dsimp only [Option.getD_some] at same registers
  rw [taken, moved] at registers
  rw [moved] at left
  have pointer : after.1.2.registers.sp = popped.sp := by
    rw [registers, Instruction.sp_afterStack]
  refine ⟨registers, same, ?_⟩
  rw [pointer, same]
  exact left

/-- The processor runs, and the instructions of its steps do the given operations on the stack.
Steps that do none leave the stack pointer and the bytes in the reach of the stack as they are. -/
inductive Runs (base : UInt16) (limit : Nat) :
    Cpu → μ → List StackOperation → Cpu → μ → Prop where
  | done (cpu : Cpu) (memory : μ) : Runs base limit cpu memory [] cpu memory
  | stack {cpu last : Cpu} {memory lastMemory : μ} {instruction : Instruction}
      {operation : StackOperation} {operations : List StackOperation} :
      cpu.Fetches memory instruction →
      instruction.stackOperation cpu.registers = some operation →
      Runs base limit (cpu.step.run memory).1.2 (cpu.step.run memory).2 operations last lastMemory →
      Runs base limit cpu memory (operation :: operations) last lastMemory
  | other {cpu last : Cpu} {memory lastMemory : μ} {operations : List StackOperation} :
      (cpu.step.run memory).1.2.registers.sp = cpu.registers.sp →
      (∀ distance, 1 ≤ distance → distance ≤ 2 * limit →
        load (cpu.step.run memory).2 (cellBelow base distance) =
          load memory (cellBelow base distance)) →
      Runs base limit (cpu.step.run memory).1.2 (cpu.step.run memory).2 operations last lastMemory →
      Runs base limit cpu memory operations last lastMemory

variable [PlainMemory μ]

theorem Fetches.represents_push (fetches : cpu.Fetches memory instruction)
    (performs : instruction.stackOperation cpu.registers = some (.push word))
    (window : StackWindow μ base limit) (room : stack.length + 1 ≤ limit)
    (represents : Represents base memory cpu.registers.sp stack) :
    let after := cpu.step.run memory
    Represents base after.2 after.1.2.registers.sp (word :: stack) ∧
      ∀ address, OutOfReach μ base limit address → load after.2 address = load memory address := by
  intro after
  obtain ⟨same, registers⟩ := fetches.step_stack performs
  obtain ⟨-, pushed, kept⟩ := represents.push window room word
  rw [run_perform_push] at same registers
  dsimp only at same registers
  have pointer : after.1.2.registers.sp = ((cpu.registers.push word).run memory).1.sp := by
    rw [registers, Instruction.sp_afterStack]
  rw [pointer, same]
  exact ⟨pushed, kept⟩

/-! ## Runs -/

/-- A run does to the list of words what its operations do. -/
theorem Runs.represents {last : Cpu} {lastMemory : μ} {operations : List StackOperation}
    {popped rest : List UInt16} (window : StackWindow μ base limit)
    (runs : Runs base limit cpu memory operations last lastMemory)
    (represents : Represents base memory cpu.registers.sp stack) (room : stack.length ≤ limit)
    (found : replay operations stack = some (popped, rest))
    (stays : Stays limit stack.length operations) :
    Represents base lastMemory last.registers.sp rest := by
  induction runs generalizing stack popped with
  | done cpu memory =>
    cases found
    exact represents
  | @stack cpu last memory lastMemory instruction operation operations fetches performs later ih =>
    cases operation with
    | push word =>
      obtain ⟨enough, stays⟩ := stays.push
      obtain ⟨pushed, -⟩ := fetches.represents_push performs window enough represents
      exact ih pushed enough found stays
    | pop =>
      obtain ⟨word, below, words, rfl, rfl, remaining⟩ := replay_pop found
      obtain ⟨-, -, left⟩ := fetches.represents_pop performs represents
      exact ih left (Nat.le_of_succ_le room) remaining stays.pop
  | other pointer kept later ih =>
    have still := represents.holds.of_load_eq fun distance first last =>
      kept distance first (Nat.le_trans last (Nat.mul_le_mul_left 2 room))
    exact ih ⟨pointer.trans represents.pointer, still⟩ room found stays

/-- A word that is pushed, by a call or otherwise, is where a return goes that follows when all that
was pushed after it has been popped; the stack pointer is then as before the push. -/
theorem returns_behind_call {last : Cpu} {lastMemory : μ} {operations : List StackOperation}
    {returning : Instruction} (window : StackWindow μ cpu.registers.sp limit)
    (fetches : cpu.Fetches memory instruction)
    (performs : instruction.stackOperation cpu.registers = some (.push word))
    (runs : Runs cpu.registers.sp limit (cpu.step.run memory).1.2 (cpu.step.run memory).2 operations
      last lastMemory)
    (balanced : Balanced operations)
    (limited : ∀ made, made <+: operations → depth made + 1 ≤ limit)
    (fetches' : last.Fetches lastMemory returning)
    (returns : returning.returns last.registers.f = true) :
    let after := last.step.run lastMemory
    after.1.2.registers.pc = word ∧ after.1.2.registers.sp = cpu.registers.sp := by
  intro after
  have room : ([] : List UInt16).length + 1 ≤ limit := limited [] List.nil_prefix
  obtain ⟨pushed, -⟩ :=
    fetches.represents_push performs window room (.empty cpu.registers.sp memory)
  obtain ⟨popped, found⟩ := balanced.replay [word]
  have left := runs.represents window pushed room found (balanced.lawful.stays limited)
  have popping := Instruction.stackOperation_of_returns returns
  obtain ⟨registers, -, restored⟩ := fetches'.represents_pop popping left
  refine ⟨?_, restored.pointer.trans (cellBelow_zero _)⟩
  rw [registers, Instruction.afterStack_of_returns returns]

/-! ## Nested calls -/

/-- The processor executes what stands in the memory, its flags are known, and what is out of the
reach of the stack is as it was. -/
structure Ready (base : UInt16) (limit : Nat) (origin : μ) (flags : Flags) (cpu : Cpu)
    (memory : μ) : Prop where
  running : cpu.locked = false
  awake : (cpu.halted && cpu.haltGating) = false
  flags : cpu.registers.f = flags
  code : ∀ address, OutOfReach μ base limit address → load memory address = load origin address

end

section

variable {μ : Type} [Memory μ]

/-- At `entry` stands a call that is made when the flags are `flags`: of the routine at `target`,
with the next instruction at `back`. All its bytes are code. -/
inductive CallAt (memory : μ) (flags : Flags) (code : UInt16 → Prop) (entry : UInt16) :
    UInt16 → UInt16 → Prop where
  | call {guard : Option Condition} :
      Instruction.lookup (load memory entry) = .call guard → Condition.met guard flags = true →
      code entry → code (entry + 1) → code (entry + 2) →
      CallAt memory flags code entry
        (Word.join (load memory (entry + 2)) (load memory (entry + 1))) (entry + 3)
  | restart {number : Fin 8} :
      Instruction.lookup (load memory entry) = .restart number → code entry →
      CallAt memory flags code entry (8 * UInt16.ofNat number) (entry + 1)

/-- At `entry` stands a return that is made when the flags are `flags`. -/
def ReturnAt (memory : μ) (flags : Flags) (code : UInt16 → Prop) (entry : UInt16) : Prop :=
  code entry ∧ (Instruction.lookup (load memory entry)).returns flags = true

/-- A routine that makes so many calls, each inside the one before, and returns from all of them. -/
inductive Nest (memory : μ) (flags : Flags) (code : UInt16 → Prop) : Nat → UInt16 → Prop where
  | innermost {entry : UInt16} : ReturnAt memory flags code entry → Nest memory flags code 0 entry
  | nested {calls : Nat} {entry target back : UInt16} :
      CallAt memory flags code entry target back → Nest memory flags code calls target →
      ReturnAt memory flags code back → Nest memory flags code (calls + 1) entry

end

theorem steps_succ {μ : Type} [Memory μ] (cpu : Cpu) (memory : μ) (count : Nat) :
    let before := cpu.steps memory count
    let after := before.1.step.run before.2
    cpu.steps memory (count + 1) = (after.1.2, after.2) := by
  induction count generalizing cpu memory with
  | zero => rfl
  | succ count ih => exact ih _ _

section

variable {μ : Type} [Memory μ] [PlainMemory μ] {cpu : Cpu} {origin memory : μ} {flags : Flags}
  {base : UInt16} {limit : Nat} {stack : List UInt16} {word : UInt16}

namespace Ready

variable {instruction : Instruction}

theorem fetches (ready : Ready base limit origin flags cpu memory)
    (code : OutOfReach μ base limit cpu.registers.pc) :
    cpu.Fetches memory (Instruction.lookup (load origin cpu.registers.pc)) where
  running := ready.running
  awake waits := by
    have awake := ready.awake
    rw [waits.halted, waits.gated] at awake
    cases awake
  opcode := by rw [ready.code _ code]

/-- A step of an instruction with an operation on the stack leaves the processor as ready as it was,
if it keeps the flags. -/
theorem step (ready : Ready base limit origin flags cpu memory)
    (fetches : cpu.Fetches memory instruction) {operation : StackOperation}
    (performs : instruction.stackOperation cpu.registers = some operation)
    (kept : (cpu.step.run memory).1.2.registers.f = cpu.registers.f)
    (same : ∀ address, OutOfReach μ base limit address →
      load (cpu.step.run memory).2 address = load memory address) :
    Ready base limit origin flags (cpu.step.run memory).1.2 (cpu.step.run memory).2 := by
  have valid : instruction ≠ .unused := by
    rintro rfl
    cases performs
  have going : (instruction == .halt) = false := by
    cases instruction with
    | halt => cases performs
    | _ => rfl
  have changes := fetches.changesOnly_step valid
  refine ⟨changes.locked.trans ready.running, ?_, kept.trans ready.flags, fun address out => ?_⟩
  · have awake := ready.awake
    rw [changes.halted, changes.haltGating, going]
    revert awake
    cases cpu.halted <;> cases cpu.haltGating <;> decide
  · rw [same address out, ready.code address out]

theorem call (window : StackWindow μ base limit) (ready : Ready base limit origin flags cpu memory)
    {target back : UInt16}
    (call : CallAt origin flags (OutOfReach μ base limit) cpu.registers.pc target back)
    (represents : Represents base memory cpu.registers.sp stack) (room : stack.length + 1 ≤ limit) :
    let after := cpu.step.run memory
    Ready base limit origin flags after.1.2 after.2 ∧ after.1.2.registers.pc = target ∧
      Represents base after.2 after.1.2.registers.sp (back :: stack) := by
  intro after
  cases call with
  | @call guard stands met first second third =>
    have fetches := ready.fetches first
    rw [stands] at fetches
    have performs : (Instruction.call guard).stackOperation cpu.registers =
        some (.push (cpu.registers.pc + 3)) := if_pos (ready.flags.symm ▸ met)
    obtain ⟨pushed, same⟩ := fetches.represents_push performs window room represents
    obtain ⟨-, registers⟩ := fetches.step_stack performs
    have kept : after.1.2.registers.f = cpu.registers.f := by rw [registers]; rfl
    refine ⟨ready.step fetches performs kept same, ?_, pushed⟩
    rw [registers, ready.code _ second, ready.code _ third]
    rfl
  | @restart number stands first =>
    have fetches := ready.fetches first
    rw [stands] at fetches
    have performs : (Instruction.restart number).stackOperation cpu.registers =
        some (.push (cpu.registers.pc + 1)) := rfl
    obtain ⟨pushed, same⟩ := fetches.represents_push performs window room represents
    obtain ⟨-, registers⟩ := fetches.step_stack performs
    have kept : after.1.2.registers.f = cpu.registers.f := by rw [registers]; rfl
    refine ⟨ready.step fetches performs kept same, ?_, pushed⟩
    rw [registers]
    rfl

theorem ret (ready : Ready base limit origin flags cpu memory)
    (ret : ReturnAt origin flags (OutOfReach μ base limit) cpu.registers.pc)
    (represents : Represents base memory cpu.registers.sp (word :: stack)) :
    let after := cpu.step.run memory
    Ready base limit origin flags after.1.2 after.2 ∧ after.1.2.registers.pc = word ∧
      Represents base after.2 after.1.2.registers.sp stack := by
  intro after
  obtain ⟨code, returns⟩ := ret
  have fetches := ready.fetches code
  have performs := Instruction.stackOperation_of_returns (ready.flags.symm ▸ returns)
  obtain ⟨registers, same, left⟩ := fetches.represents_pop performs represents
  rw [Instruction.afterStack_of_returns returns] at registers
  have kept : after.1.2.registers.f = cpu.registers.f := by rw [registers]
  refine ⟨ready.step fetches performs kept fun address _ => by rw [same], ?_, left⟩
  rw [registers]

end Ready

/-- A routine takes the word on top of the stack and goes there, whatever calls it makes. -/
theorem Nest.run (window : StackWindow μ base limit) {calls : Nat} {entry : UInt16}
    (nest : Nest origin flags (OutOfReach μ base limit) calls entry)
    (ready : Ready base limit origin flags cpu memory) (stands : cpu.registers.pc = entry)
    (represents : Represents base memory cpu.registers.sp (word :: stack))
    (room : stack.length + 1 + calls ≤ limit) :
    let after := cpu.steps memory (2 * calls + 1)
    Ready base limit origin flags after.1 after.2 ∧ after.1.registers.pc = word ∧
      Represents base after.2 after.1.registers.sp stack := by
  -- The steps of a routine are a call, the steps of the routine that is called, and a return.
  induction nest generalizing cpu memory stack word with
  | innermost ret =>
    subst stands
    exact ready.ret ret represents
  | @nested calls entry target back call inner ret ih =>
    subst stands
    intro after
    have enough : stack.length + 1 + 1 + calls ≤ limit := by rwa [Nat.add_right_comm _ 1 calls]
    obtain ⟨called, arrived, pushed⟩ :=
      ready.call window call represents (Nat.le_of_add_right_le enough)
    obtain ⟨left, returned, popped⟩ := ih called arrived pushed enough
    have split : after = _ := steps_succ _ _ (2 * calls + 1)
    rw [split]
    exact left.ret (returned.symm ▸ ret) popped

/-- The processor at a call: when the calls made in the routine are over, it stands behind this one,
with the stack pointer as before. -/
theorem nested_calls_return {calls : Nat} {target back : UInt16}
    (window : StackWindow μ cpu.registers.sp (calls + 1)) (running : cpu.locked = false)
    (awake : (cpu.halted && cpu.haltGating) = false)
    (call : CallAt memory cpu.registers.f (OutOfReach μ cpu.registers.sp (calls + 1))
      cpu.registers.pc target back)
    (nest : Nest memory cpu.registers.f (OutOfReach μ cpu.registers.sp (calls + 1)) calls target) :
    let after := cpu.steps memory (2 * (calls + 1))
    after.1.registers.pc = back ∧ after.1.registers.sp = cpu.registers.sp := by
  have ready : Ready cpu.registers.sp (calls + 1) memory cpu.registers.f cpu memory :=
    ⟨running, awake, rfl, fun _ _ => rfl⟩
  obtain ⟨called, arrived, pushed⟩ :=
    ready.call window call (.empty cpu.registers.sp memory) (Nat.le_add_left 1 calls)
  have room : ([] : List UInt16).length + 1 + calls ≤ calls + 1 :=
    Nat.le_of_eq (Nat.add_comm 1 calls)
  obtain ⟨-, returned, restored⟩ := nest.run window called arrived pushed room
  exact ⟨returned, restored.pointer.trans (cellBelow_zero _)⟩

end

end Cpu

/-! ## The stack of a program -/

/-- The processor's stack is a stack of words, on every plain memory and from every address on.
While no operation pops a word that was not pushed and the bytes within reach keep what is written
to them and are apart, each pop returns the word of the push that it matches; the stack pointer is
always two bytes lower for each word on the stack, and no byte out of reach changes. Flat memory
allows every reach of up to 65536 bytes; the console's memory every reach without ROM, without the
unusable region and without a byte of the work RAM that it shows twice. PUSH, CALL and RST push,
POP, RET and RETI pop, and each then goes on where it should. So a return goes behind the call that
it belongs to, with the stack pointer as it was before the call: in any run that keeps to the stack,
and in every nest of calls and returns that stand out of the reach of the stack. -/
theorem stack_is_lifo :
    (∀ {μ : Type} [Memory μ] [PlainMemory μ] (registers : Registers) (memory : μ)
      (operations : List StackOperation) (limit : Nat),
      Lawful operations → (∀ made, made <+: operations → depth made ≤ limit) →
      StackWindow μ registers.sp limit →
      ∀ made, made <+: operations →
        let after := (performAll registers made).run memory
        (∃ stack, replay made [] = some (after.1.1, stack)) ∧
        (∀ before word between later,
          made = before ++ .push word :: (between ++ .pop :: later) → Balanced between →
          after.1.1[pops (before ++ between)]? = some word) ∧
        after.1.2 = { registers with sp := registers.sp - .ofNat (2 * depth made) } ∧
        (∀ address, OutOfReach μ registers.sp limit address →
          load after.2 address = load memory address)) ∧
    (∀ (base : UInt16) (limit : Nat), StackWindow FlatMemory base limit ↔ 2 * limit ≤ 65536) ∧
    (∀ (base : UInt16) (limit : Nat), StackWindow MemoryMap base limit ↔
      (∀ distance, 1 ≤ distance → distance ≤ 2 * limit →
        Region.Writable (cellBelow base distance)) ∧
      (∀ distance other, 1 ≤ distance → distance ≤ 2 * limit → 1 ≤ other → other ≤ 2 * limit →
        0xE000 ≤ cellBelow base distance → cellBelow base distance < 0xFE00 →
        cellBelow base other ≠ cellBelow base distance - 0x2000)) ∧
    (∀ {μ : Type} [Memory μ] (cpu : Cpu) (memory : μ) (instruction : Instruction)
      (operation : StackOperation),
      cpu.Fetches memory instruction →
      instruction.stackOperation cpu.registers = some operation →
      let performed := (operation.perform cpu.registers).run memory
      let operand :=
        Word.join (load memory (cpu.registers.pc + 2)) (load memory (cpu.registers.pc + 1))
      let after := cpu.step.run memory
      after.2 = performed.2 ∧
        after.1.2.registers =
          instruction.afterStack performed.1.2 operand (performed.1.1.getD 0)) ∧
    (∀ {μ : Type} [Memory μ] [PlainMemory μ] (cpu last : Cpu) (memory lastMemory : μ)
      (instruction returning : Instruction) (word : UInt16) (operations : List StackOperation)
      (limit : Nat),
      StackWindow μ cpu.registers.sp limit →
      cpu.Fetches memory instruction →
      instruction.stackOperation cpu.registers = some (.push word) →
      Cpu.Runs cpu.registers.sp limit (cpu.step.run memory).1.2 (cpu.step.run memory).2 operations
        last lastMemory →
      Balanced operations → (∀ made, made <+: operations → depth made + 1 ≤ limit) →
      last.Fetches lastMemory returning → returning.returns last.registers.f = true →
      let after := last.step.run lastMemory
      after.1.2.registers.pc = word ∧ after.1.2.registers.sp = cpu.registers.sp) ∧
    (∀ {μ : Type} [Memory μ] [PlainMemory μ] (cpu : Cpu) (memory : μ) (calls : Nat)
      (target back : UInt16),
      let code := OutOfReach μ cpu.registers.sp (calls + 1)
      StackWindow μ cpu.registers.sp (calls + 1) →
      cpu.locked = false → (cpu.halted && cpu.haltGating) = false →
      Cpu.CallAt memory cpu.registers.f code cpu.registers.pc target back →
      Cpu.Nest memory cpu.registers.f code calls target →
      let after := cpu.steps memory (2 * (calls + 1))
      after.1.registers.pc = back ∧ after.1.registers.sp = cpu.registers.sp) := by
  refine ⟨?lifo, stackWindow_flat, stackWindow_map, ?instructions, ?runs, ?nests⟩
  case lifo =>
    intro μ _ _ registers memory operations limit lawful limited window made before
    exact performAll_lifo registers memory (lawful.of_prefix before)
      (fun first within => limited first (within.trans before)) window
  case instructions =>
    intro μ _ cpu memory instruction operation fetches performs
    exact fetches.step_stack performs
  case runs =>
    intro μ _ _ cpu last memory lastMemory instruction returning word operations limit window
      fetches performs runs balanced limited fetches' returns
    exact Cpu.returns_behind_call window fetches performs runs balanced limited fetches' returns
  case nests =>
    intro μ _ _ cpu memory calls target back code window running awake call nest
    exact Cpu.nested_calls_return window running awake call nest

/-- At $0100 a routine is called that does nothing but call another one, at $0018. -/
def callInCall : FlatMemory :=
  store (store (store (store (store FlatMemory.blank 0x0100 0xCD) 0x0102 0x02) 0x0200 0xDF)
    0x0018 0xC9) 0x0201 0xD9

theorem lookup_callInCall :
    Instruction.lookup (load callInCall 0x0100) = .call none ∧
    Word.join (load callInCall 0x0102) (load callInCall 0x0101) = 0x0200 ∧
    Instruction.lookup (load callInCall 0x0200) = .restart 3 ∧
    Instruction.lookup (load callInCall 0x0018) = .ret none ∧
    Instruction.lookup (load callInCall 0x0201) = .reti := by
  simp only [callInCall, FlatMemory.load_store, FlatMemory.load_blank, Instruction.lookup_eq_decode]
  decide

/-- Words pushed and popped again, and the two calls, with a stack from $FFFA to $FFFD. -/
theorem stack_is_lifo_call_in_call :
    let operations : List StackOperation := [.push 0x1234, .push 0x5678, .pop, .pop]
    let code := OutOfReach FlatMemory 0xFFFE 2
    let flags := Cpu.postBoot.registers.f
    let routine := { Cpu.postBoot with registers := { Cpu.postBoot.registers with pc := 0x0200 } }
    Lawful operations ∧ (∀ made, made <+: operations → depth made ≤ 2) ∧
      StackWindow FlatMemory 0xFFFE 2 ∧
      ((performAll Cpu.postBoot.registers operations).run callInCall).1.1 = [0x5678, 0x1234] ∧
      Cpu.CallAt callInCall flags code 0x0100 0x0200 0x0103 ∧
      Cpu.Nest callInCall flags code 1 0x0200 ∧
      (Cpu.postBoot.steps callInCall 4).1.registers.pc = 0x0103 ∧
      (Cpu.postBoot.steps callInCall 4).1.registers.sp = 0xFFFE ∧
      routine.Fetches callInCall (.restart 3) ∧
      (routine.steps callInCall 1).1.registers.pc = 0x0018 ∧
      (routine.steps callInCall 1).1.Fetches (routine.steps callInCall 1).2 (.ret none) ∧
      (routine.steps callInCall 2).1.registers.pc = 0x0201 := by
  intro operations code flags routine
  obtain ⟨lifo, flat, -, instructions, runs, nests⟩ := stack_is_lifo
  have lawful : Lawful operations := by decide
  have limited : ∀ made, made <+: operations → depth made ≤ 2 := forall_prefix_iff.2 (by decide)
  have window : StackWindow FlatMemory 0xFFFE 2 := (flat _ 2).2 (by decide)
  obtain ⟨⟨stack, found⟩, -⟩ := lifo Cpu.postBoot.registers callInCall operations 2 lawful limited
    window operations (List.prefix_refl _)
  have popped : replay operations [] = some ([0x5678, 0x1234], []) := rfl
  rw [popped] at found
  have words := congrArg Prod.fst (Option.some.inj found)
  have low (address : UInt16) (below : address.toNat < 0x0300) : code address := by
    intro distance first last same
    have number := congrArg UInt16.toNat same
    change (cellBelow 0xFFFE distance).toNat = address.toNat at number
    simp only [toNat_cellBelow, UInt16.reduceToNat] at number
    omega
  obtain ⟨calling, target, restarting, returning, returning'⟩ := lookup_callInCall
  have call : Cpu.CallAt callInCall flags code 0x0100 0x0200 0x0103 := by
    rw [← target]
    exact .call calling rfl (low _ (by decide)) (low _ (by decide)) (low _ (by decide))
  have inner : Cpu.CallAt callInCall flags code 0x0200 0x0018 0x0201 :=
    .restart restarting (low _ (by decide))
  have ret : Cpu.ReturnAt callInCall flags code 0x0018 :=
    ⟨low _ (by decide), by rw [returning]; rfl⟩
  have ret' : Cpu.ReturnAt callInCall flags code 0x0201 :=
    ⟨low _ (by decide), by rw [returning']; rfl⟩
  have nest : Cpu.Nest callInCall flags code 1 0x0200 := .nested inner (.innermost ret) ret'
  have four : 2 * (1 + 1) = 4 := rfl
  obtain ⟨back, pointer⟩ := nests Cpu.postBoot callInCall 1 0x0200 0x0103 window rfl rfl call nest
  rw [four] at back pointer
  have ready : Cpu.Ready 0xFFFE 2 callInCall flags routine callInCall :=
    ⟨rfl, rfl, rfl, fun _ _ => rfl⟩
  obtain ⟨called, arrived, -⟩ := ready.call window inner (.empty 0xFFFE callInCall) (by decide)
  have fetches := ready.fetches (low 0x0200 (by decide))
  have fetches' := called.fetches (arrived.symm ▸ ret.1)
  rw [restarting] at fetches
  rw [arrived, returning] at fetches'
  have even : Balanced [] := ⟨by decide, rfl⟩
  have empty : ∀ made, made <+: [] → depth made + 1 ≤ 2 := forall_prefix_iff.2 (by decide)
  obtain ⟨returned, -⟩ := runs routine _ callInCall _ _ _ 0x0201 [] 2 window fetches rfl (.done _ _)
    even empty fetches' rfl
  obtain ⟨-, registers⟩ := instructions routine callInCall _ _ fetches rfl
  refine ⟨lawful, limited, window, words.symm, call, nest, back, pointer, fetches, ?_, ?_, ?_⟩
  · simp only [Cpu.steps]
    rw [registers]
    rfl
  · simp only [Cpu.steps]
    exact fetches'
  · simp only [Cpu.steps]
    exact returned

end DotMatrix
