import DotMatrix.Proofs.Cpu.Footprint

/-!
# The stack as a list of words

A program sees a stack: what was pushed last is popped first. In memory there are only bytes below
an address, some of which hold words that were pushed and not popped yet. As long as every byte that
the stack reaches keeps what is written to it, and has a place of its own, the two agree.

Results:
1. `exists_replay`, `length_replay`, `Balanced.replay`, `replay_matching`: stacks as lists.
2. `Represents.push`, `Represents.pop`: an operation on the memory is the operation on the list.
3. `Represents.performAll`, `performAll_lifo`: so is any sequence of operations, and no byte
   outside the reach of the stack changes.
4. `stackWindow_flat`, `stackWindow_map`: where a stack works, on both memories.
-/

namespace DotMatrix

open Memory

/-! ## Operations -/

/-- What a program does with the stack. -/
inductive StackOperation where
  | push (word : UInt16)
  | pop
deriving DecidableEq, Repr

namespace StackOperation

/-- How many words are pushed. -/
def pushes : List StackOperation → Nat
  | [] => 0
  | .push _ :: later => pushes later + 1
  | .pop :: later => pushes later

/-- How many words are popped. -/
def pops : List StackOperation → Nat
  | [] => 0
  | .push _ :: later => pops later
  | .pop :: later => pops later + 1

/-- How many words are pushed and not popped. -/
def depth (operations : List StackOperation) : Nat := pushes operations - pops operations

/-- At no time more words are popped than were pushed. -/
def Lawful (operations : List StackOperation) : Prop :=
  ∀ made, made <+: operations → pops made ≤ pushes made

/-- All that is pushed is popped again, and nothing else is. -/
structure Balanced (operations : List StackOperation) : Prop where
  lawful : Lawful operations
  even : pops operations = pushes operations

/-- The operations on a list of words, the last one pushed first. Returns the words that are popped,
in order, and what is left; nothing if a word is popped that is not there. -/
def replay : List StackOperation → List UInt16 → Option (List UInt16 × List UInt16)
  | [], stack => some ([], stack)
  | .push word :: later, stack => replay later (word :: stack)
  | .pop :: _, [] => none
  | .pop :: later, word :: stack =>
    (replay later stack).map fun result => (word :: result.1, result.2)

/-- An operation of the processor. Returns the word that is popped. -/
def perform (registers : Registers) : StackOperation → Transaction (Option UInt16 × Registers)
  | .push word => do
      let registers ← registers.push word
      return (none, registers)
  | .pop => do
      let (word, registers) ← registers.pop
      return (some word, registers)

/-- The operations of the processor, one after the other. Returns the words that are popped, in
order. -/
def performAll (registers : Registers) : List StackOperation → Transaction (List UInt16 × Registers)
  | [] => return ([], registers)
  | operation :: later => do
      let (word, registers) ← operation.perform registers
      let (words, registers) ← performAll registers later
      return (word.toList ++ words, registers)

/-! ## Stacks as lists -/

variable {operations later : List StackOperation} {stack popped rest : List UInt16}

theorem pops_append (before later : List StackOperation) :
    pops (before ++ later) = pops before + pops later := by
  induction before with
  | nil => exact (Nat.zero_add _).symm
  | cons operation before ih =>
    cases operation with
    | push word => exact ih
    | pop => rw [List.cons_append, pops, pops, ih, Nat.add_right_comm]

/-- The beginnings of a sequence can be gone through. -/
theorem forall_prefix_iff {property : List StackOperation → Prop} :
    (∀ made, made <+: operations → property made) ↔
      ∀ count, count < operations.length + 1 → property (operations.take count) := by
  constructor
  · intro all count _
    exact all _ (List.take_prefix count operations)
  · intro all made before
    rw [List.prefix_iff_eq_take.1 before]
    exact all _ (Nat.lt_succ_of_le before.length_le)

instance (operations : List StackOperation) : Decidable (Lawful operations) :=
  decidable_of_iff _ forall_prefix_iff.symm

theorem Lawful.of_prefix (lawful : Lawful operations) {made : List StackOperation}
    (before : made <+: operations) : Lawful made :=
  fun first within => lawful first (within.trans before)

/-- A word is popped only from a stack that has one. -/
theorem replay_pop (found : replay (.pop :: later) stack = some (popped, rest)) :
    ∃ word below words, stack = word :: below ∧ popped = word :: words ∧
      replay later below = some (words, rest) := by
  cases stack with
  | nil => cases found
  | cons word below =>
    obtain ⟨⟨words, left⟩, remaining, same⟩ := Option.map_eq_some_iff.1 found
    cases same
    exact ⟨word, below, words, rfl, rfl, remaining⟩

theorem exists_replay
    (lawful : ∀ made, made <+: operations → pops made ≤ stack.length + pushes made) :
    ∃ popped rest, replay operations stack = some (popped, rest) := by
  induction operations generalizing stack with
  | nil => exact ⟨[], stack, rfl⟩
  | cons operation later ih =>
    cases operation with
    | push word =>
      refine ih fun made before => ?_
      have whole := lawful (.push word :: made) ((List.prefix_cons_inj _).2 before)
      simp only [pops, pushes] at whole
      simp only [List.length_cons]
      omega
    | pop =>
      cases stack with
      | nil =>
        have first := lawful [.pop] (List.prefix_append [.pop] later)
        exact absurd first (by decide)
      | cons word below =>
        have left (made : List StackOperation) (before : made <+: later) :
            pops made ≤ below.length + pushes made := by
          have whole := lawful (.pop :: made) ((List.prefix_cons_inj _).2 before)
          simp only [pops, pushes, List.length_cons] at whole
          omega
        obtain ⟨popped, rest, found⟩ := ih left
        exact ⟨word :: popped, rest, by rw [replay, found]; rfl⟩

theorem length_replay (found : replay operations stack = some (popped, rest)) :
    popped.length = pops operations ∧
      rest.length + pops operations = stack.length + pushes operations := by
  induction operations generalizing stack popped with
  | nil =>
    cases found
    exact ⟨rfl, rfl⟩
  | cons operation later ih =>
    cases operation with
    | push word =>
      obtain ⟨words, left⟩ := ih found
      simp only [List.length_cons] at left
      exact ⟨words, by simp only [pops, pushes]; omega⟩
    | pop =>
      obtain ⟨word, below, words, rfl, rfl, remaining⟩ := replay_pop found
      obtain ⟨counted, left⟩ := ih remaining
      simp only [pops, pushes, List.length_cons]
      omega

theorem replay_append (before : List StackOperation)
    (found : replay (before ++ later) stack = some (popped, rest)) :
    ∃ first middle second, replay before stack = some (first, middle) ∧
      replay later middle = some (second, rest) ∧ popped = first ++ second := by
  induction before generalizing stack popped with
  | nil => exact ⟨[], stack, popped, rfl, found, rfl⟩
  | cons operation before ih =>
    cases operation with
    | push word => exact ih found
    | pop =>
      obtain ⟨word, below, words, rfl, rfl, remaining⟩ := replay_pop found
      obtain ⟨first, middle, second, start, finish, rfl⟩ := ih remaining
      exact ⟨word :: first, middle, second, by rw [replay, start]; rfl, finish, rfl⟩

/-- Words below those that are needed do not matter. -/
theorem replay_above (found : replay operations stack = some (popped, rest))
    (below : List UInt16) : replay operations (stack ++ below) = some (popped, rest ++ below) := by
  induction operations generalizing stack popped with
  | nil =>
    cases found
    rfl
  | cons operation later ih =>
    cases operation with
    | push word => exact ih found
    | pop =>
      obtain ⟨word, under, words, rfl, rfl, remaining⟩ := replay_pop found
      rw [List.cons_append, replay, ih remaining]
      rfl

theorem Lawful.exists_replay (lawful : Lawful operations) :
    ∃ popped rest, replay operations [] = some (popped, rest) := by
  refine StackOperation.exists_replay fun made before => ?_
  rw [List.length_nil, Nat.zero_add]
  exact lawful made before

theorem Balanced.replay (balanced : Balanced operations) (stack : List UInt16) :
    ∃ popped, replay operations stack = some (popped, stack) := by
  obtain ⟨popped, rest, found⟩ := balanced.lawful.exists_replay
  have length := (length_replay found).2
  rw [balanced.even, List.length_nil] at length
  obtain rfl : rest = [] := List.length_eq_zero_iff.1 (Nat.add_right_cancel length)
  exact ⟨popped, replay_above found stack⟩

/-- A pop returns the word of the push that it matches. -/
theorem replay_matching {before between after : List StackOperation} {word : UInt16}
    (balanced : Balanced between)
    (found : replay (before ++ .push word :: (between ++ .pop :: after)) stack =
      some (popped, rest)) :
    popped[pops (before ++ between)]? = some word := by
  obtain ⟨first, middle, second, start, pushed, rfl⟩ := replay_append before found
  obtain ⟨inner, left, third, passed, popping, rfl⟩ := replay_append between pushed
  obtain ⟨words, same⟩ := balanced.replay (word :: middle)
  rw [passed] at same
  obtain ⟨rfl, rfl⟩ := Prod.mk.inj (Option.some.inj same)
  obtain ⟨top, below, last, stacked, rfl, -⟩ := replay_pop popping
  cases stacked
  rw [pops_append, ← (length_replay start).1, ← (length_replay passed).1, ← List.length_append,
    ← List.append_assoc, List.getElem?_append_right (Nat.le_refl _), Nat.sub_self]
  rfl

/-! ## Limited depth -/

/-- On top of so many words, the operations never have more than `limit` words on the stack. -/
def Stays (limit height : Nat) (operations : List StackOperation) : Prop :=
  ∀ made, made <+: operations → height + pushes made ≤ limit + pops made

theorem Stays.push {limit height : Nat} {word : UInt16}
    (stays : Stays limit height (.push word :: later)) :
    height + 1 ≤ limit ∧ Stays limit (height + 1) later := by
  constructor
  · have first := stays [.push word] (List.prefix_append [.push word] later)
    simpa only [pushes, pops, Nat.zero_add, Nat.add_zero] using first
  · intro made before
    have whole := stays (.push word :: made) ((List.prefix_cons_inj _).2 before)
    simp only [pushes, pops] at whole
    omega

theorem Stays.pop {limit height : Nat} (stays : Stays limit (height + 1) (.pop :: later)) :
    Stays limit height later := by
  intro made before
  have whole := stays (.pop :: made) ((List.prefix_cons_inj _).2 before)
  simp only [pushes, pops] at whole
  omega

theorem Lawful.stays {limit height : Nat} (lawful : Lawful operations)
    (limited : ∀ made, made <+: operations → depth made + height ≤ limit) :
    Stays limit height operations := by
  intro made before
  have enough := lawful made before
  have few := limited made before
  rw [depth] at few
  omega

end StackOperation

/-! ## The reach of a stack -/

/-- The address so many bytes below another one; addresses wrap. -/
def cellBelow (base : UInt16) (distance : Nat) : UInt16 := base - .ofNat distance

@[simp] theorem cellBelow_zero (base : UInt16) : cellBelow base 0 = base := UInt16.sub_zero base

theorem cellBelow_succ (base : UInt16) (distance : Nat) :
    cellBelow base (distance + 1) = cellBelow base distance - 1 := by
  have one : UInt16.ofNat 1 = 1 := rfl
  rw [cellBelow, cellBelow, UInt16.ofNat_add, one]
  grind

theorem cellBelow_succ_add_one (base : UInt16) (distance : Nat) :
    cellBelow base (distance + 1) + 1 = cellBelow base distance := by
  rw [cellBelow_succ]
  grind

theorem cellBelow_add_two (base : UInt16) (distance : Nat) :
    cellBelow base (distance + 2) = cellBelow base distance - 2 := by
  rw [cellBelow_succ, cellBelow_succ]
  grind

theorem toNat_cellBelow (base : UInt16) (distance : Nat) :
    (cellBelow base distance).toNat = (base.toNat + (65536 - distance % 65536)) % 65536 := by
  rw [cellBelow, UInt16.toNat_sub, UInt16.toNat_ofNat']
  omega

theorem cellBelow_eq_iff (base : UInt16) (near far : Nat) :
    cellBelow base near = cellBelow base far ↔ near % 65536 = far % 65536 := by
  rw [← UInt16.toNat_inj, toNat_cellBelow, toNat_cellBelow]
  omega

/-- Far enough below an address there is every address. -/
theorem exists_cellBelow (base address : UInt16) :
    ∃ distance, 1 ≤ distance ∧ distance ≤ 65536 ∧ cellBelow base distance = address := by
  have bound := address.toNat_lt
  refine ⟨(base.toNat + 65535 - address.toNat) % 65536 + 1, by omega, by omega, ?_⟩
  rw [← UInt16.toNat_inj, toNat_cellBelow]
  omega

/-- The bytes below `base`, enough for `limit` words, keep what is written to them, and no two of
them are one place. -/
structure StackWindow (μ : Type) [Memory μ] [PlainMemory μ] (base : UInt16) (limit : Nat) :
    Prop where
  keeps : ∀ distance, 1 ≤ distance → distance ≤ 2 * limit →
    PlainMemory.keeps μ (cellBelow base distance) = true
  apart : ∀ near far, 1 ≤ near → near < far → far ≤ 2 * limit →
    PlainMemory.canonical μ (cellBelow base near) ≠ PlainMemory.canonical μ (cellBelow base far)

theorem StackWindow.eq_of_canonical_eq {μ : Type} [Memory μ] [PlainMemory μ] {base : UInt16}
    {limit : Nat} (window : StackWindow μ base limit) {distance other : Nat}
    (inside : 1 ≤ distance ∧ distance ≤ 2 * limit) (inside' : 1 ≤ other ∧ other ≤ 2 * limit)
    (same : PlainMemory.canonical μ (cellBelow base distance) =
      PlainMemory.canonical μ (cellBelow base other)) : distance = other := by
  rcases Nat.lt_trichotomy distance other with near | equal | far
  · exact absurd same (window.apart distance other inside.1 near inside'.2)
  · exact equal
  · exact absurd same.symm (window.apart other distance inside'.1 far inside.2)

/-- An address that is none of the bytes below `base`, and shows none of them. -/
def OutOfReach (μ : Type) [Memory μ] [PlainMemory μ] (base : UInt16) (limit : Nat)
    (address : UInt16) : Prop :=
  ∀ distance, 1 ≤ distance → distance ≤ 2 * limit →
    PlainMemory.canonical μ (cellBelow base distance) ≠ PlainMemory.canonical μ address

/-- On flat memory a stack works as long as it does not reach itself. -/
theorem stackWindow_flat (base : UInt16) (limit : Nat) :
    StackWindow FlatMemory base limit ↔ 2 * limit ≤ 65536 := by
  constructor
  · intro window
    refine Nat.le_of_not_lt fun long => ?_
    have around : cellBelow base 1 = cellBelow base 65537 := (cellBelow_eq_iff _ _ _).2 rfl
    exact window.apart 1 65537 (by omega) (by omega) (by omega) around
  · intro short
    refine ⟨fun _ _ _ => rfl, fun near far first order last same => ?_⟩
    have equal : near % 65536 = far % 65536 := (cellBelow_eq_iff base near far).1 same
    omega

/-- On the console's memory a stack works as long as it reaches neither ROM nor the unusable region,
nor a byte of the work RAM together with its echo. -/
theorem stackWindow_map (base : UInt16) (limit : Nat) :
    StackWindow MemoryMap base limit ↔
      (∀ distance, 1 ≤ distance → distance ≤ 2 * limit →
        Region.Writable (cellBelow base distance)) ∧
      (∀ distance other, 1 ≤ distance → distance ≤ 2 * limit → 1 ≤ other → other ≤ 2 * limit →
        0xE000 ≤ cellBelow base distance → cellBelow base distance < 0xFE00 →
        cellBelow base other ≠ cellBelow base distance - 0x2000) := by
  constructor
  · intro window
    refine ⟨fun distance first last => of_decide_eq_true (window.keeps distance first last), ?_⟩
    intro distance other first last first' last' low high twin
    have shown : Region.canonical (cellBelow base distance) = cellBelow base distance - 0x2000 :=
      if_pos ⟨low, high⟩
    have kept : Region.canonical (cellBelow base other) = cellBelow base other := by
      have lowered := UInt16.toNat_sub_of_le (cellBelow base distance) 0x2000
      simp only [UInt16.le_iff_toNat_le, UInt16.lt_iff_toNat_lt, UInt16.reduceToNat]
        at low high lowered
      refine if_neg fun echo => ?_
      simp only [twin, UInt16.le_iff_toNat_le, UInt16.lt_iff_toNat_lt, UInt16.reduceToNat] at echo
      omega
    have same : Region.canonical (cellBelow base distance) =
        Region.canonical (cellBelow base other) := by rw [shown, kept, twin]
    obtain rfl := window.eq_of_canonical_eq ⟨first, last⟩ ⟨first', last'⟩ same
    have moved : cellBelow base distance ≠ cellBelow base distance - 0x2000 := by grind
    exact moved twin
  · rintro ⟨writable, twins⟩
    refine ⟨fun distance first last => decide_eq_true (writable distance first last), ?_⟩
    intro near far first order last same
    change Region.canonical _ = Region.canonical _ at same
    have different : cellBelow base near ≠ cellBelow base far := by
      intro equal
      have around := (cellBelow_eq_iff base near far).1 equal
      -- The window goes all the way round, so ROM is in it.
      obtain ⟨distance, positive, within, rom⟩ := exists_cellBelow base 0
      have kept := writable distance positive (by omega)
      rw [rom] at kept
      exact absurd kept (by decide)
    by_cases echo : 0xE000 ≤ cellBelow base near ∧ cellBelow base near < 0xFE00 <;>
      by_cases echo' : 0xE000 ≤ cellBelow base far ∧ cellBelow base far < 0xFE00
    · rw [Region.canonical, if_pos echo, Region.canonical, if_pos echo'] at same
      exact different (by grind)
    · rw [Region.canonical, if_pos echo, Region.canonical, if_neg echo'] at same
      exact twins near far first (by omega) (by omega) last echo.1 echo.2 same.symm
    · rw [Region.canonical, if_neg echo, Region.canonical, if_pos echo'] at same
      exact twins far near (by omega) last first (by omega) echo'.1 echo'.2 same
    · rw [Region.canonical, if_neg echo, Region.canonical, if_neg echo'] at same
      exact different same

/-! ## Stacks in memory -/

section

variable {μ : Type} [Memory μ]

/-- The words of a stack stand below `base`, the last one pushed first and at the lowest address. -/
def Holds (base : UInt16) (memory : μ) : List UInt16 → Prop
  | [] => True
  | word :: below =>
    load memory (cellBelow base (2 * below.length + 2)) = Word.low word ∧
    load memory (cellBelow base (2 * below.length + 1)) = Word.high word ∧
    Holds base memory below

/-- A stack is represented in memory, and a stack pointer points to it. -/
structure Represents (base : UInt16) (memory : μ) (pointer : UInt16) (stack : List UInt16) :
    Prop where
  pointer : pointer = cellBelow base (2 * stack.length)
  holds : Holds base memory stack

theorem Represents.empty (base : UInt16) (memory : μ) : Represents base memory base [] where
  pointer := (cellBelow_zero base).symm
  holds := trivial

theorem Holds.of_load_eq {base : UInt16} {memory other : μ} {stack : List UInt16}
    (holds : Holds base memory stack)
    (same : ∀ distance, 1 ≤ distance → distance ≤ 2 * stack.length →
      load other (cellBelow base distance) = load memory (cellBelow base distance)) :
    Holds base other stack := by
  induction stack with
  | nil => trivial
  | cons word below ih =>
    obtain ⟨low, high, under⟩ := holds
    simp only [List.length_cons] at same
    refine ⟨?_, ?_, ih under fun distance first last => same distance first (by omega)⟩
    · rw [same _ (by omega) (by omega), low]
    · rw [same _ (by omega) (by omega), high]

variable {base : UInt16} {memory : μ} {registers : Registers} {stack : List UInt16} {limit : Nat}

/-- A pop takes the first word of the list and leaves the memory as it is. -/
theorem Represents.pop {word : UInt16}
    (represents : Represents base memory registers.sp (word :: stack)) :
    let after := registers.pop.run memory
    after.1.1 = word ∧ after.1.2 = { registers with sp := cellBelow base (2 * stack.length) } ∧
      after.2 = memory ∧ Represents base memory after.1.2.sp stack := by
  obtain ⟨pointer, low, high, under⟩ := represents
  rw [List.length_cons, Nat.mul_add] at pointer
  have past : registers.sp + 2 = cellBelow base (2 * stack.length) := by
    rw [pointer, cellBelow_add_two]
    grind
  have taken : Word.join (load memory (registers.sp + 1)) (load memory registers.sp) = word := by
    rw [pointer, cellBelow_succ_add_one, low, high, Word.join_high_low]
  have moved : (registers.pop.run memory).1.2 =
      { registers with sp := cellBelow base (2 * stack.length) } := by
    rw [← past]
    rfl
  exact ⟨taken, moved, rfl, congrArg Registers.sp moved, under⟩

namespace StackOperation

variable (registers : Registers) (memory : μ) (later : List StackOperation)

@[simp] theorem run_perform_push (word : UInt16) :
    let pushed := (registers.push word).run memory
    (perform registers (.push word)).run memory = ((none, pushed.1), pushed.2) := rfl

@[simp] theorem run_perform_pop :
    let popped := registers.pop.run memory
    (perform registers .pop).run memory = ((some popped.1.1, popped.1.2), popped.2) := rfl

theorem run_performAll_push (word : UInt16) :
    let pushed := (registers.push word).run memory
    (performAll registers (.push word :: later)).run memory =
      (performAll pushed.1 later).run pushed.2 := by
  simp [performAll]

theorem run_performAll_pop :
    let popped := registers.pop.run memory
    let after := (performAll popped.1.2 later).run popped.2
    (performAll registers (.pop :: later)).run memory =
      ((popped.1.1 :: after.1.1, after.1.2), after.2) := by
  simp [performAll]

end StackOperation

variable [PlainMemory μ]

theorem StackWindow.keepsWord (window : StackWindow μ base limit) (distance : Nat)
    (first : 1 ≤ distance) (last : distance + 1 ≤ 2 * limit) :
    PlainMemory.KeepsWord μ (cellBelow base (distance + 1)) := by
  have apart := window.apart distance (distance + 1) first (Nat.lt_succ_self _) last
  constructor
  · exact window.keeps _ (Nat.le_add_left 1 distance) last
  · rw [cellBelow_succ_add_one]
    exact window.keeps _ first (Nat.le_of_succ_le last)
  · rw [cellBelow_succ_add_one]
    exact apart.symm

theorem load_push_of_apart (word : UInt16) {address : UInt16}
    (high : PlainMemory.canonical μ (registers.sp - 1) ≠ PlainMemory.canonical μ address)
    (low : PlainMemory.canonical μ (registers.sp - 2) ≠ PlainMemory.canonical μ address) :
    load ((registers.push word).run memory).2 address = load memory address := by
  refine PlainMemory.load_run_of_apart fun written member => ?_
  rw [Registers.writes_push, Registers.pushed] at member
  simp only [List.mem_cons, List.not_mem_nil, or_false] at member
  rcases member with rfl | rfl
  · exact high
  · exact low

/-- A push puts a word in front of the list. It changes nothing out of the reach of the stack. -/
theorem Represents.push (window : StackWindow μ base limit)
    (represents : Represents base memory registers.sp stack) (room : stack.length + 1 ≤ limit)
    (word : UInt16) :
    let after := (registers.push word).run memory
    after.1 = { registers with sp := cellBelow base (2 * (stack.length + 1)) } ∧
      Represents base after.2 after.1.sp (word :: stack) ∧
      ∀ address, OutOfReach μ base limit address → load after.2 address = load memory address := by
  obtain ⟨pointer, holds⟩ := represents
  have first : registers.sp - 1 = cellBelow base (2 * stack.length + 1) := by
    rw [pointer, cellBelow_succ]
  have second : registers.sp - 2 = cellBelow base (2 * stack.length + 2) := by
    rw [pointer, cellBelow_add_two]
  intro after
  have written : after = ({ registers with sp := cellBelow base (2 * stack.length + 2) },
      store (store memory (cellBelow base (2 * stack.length + 1)) (Word.high word))
        (cellBelow base (2 * stack.length + 2)) (Word.low word)) := by
    rw [← first, ← second]
    rfl
  have keeps := window.keepsWord (2 * stack.length + 1) (by omega) (by omega)
  obtain ⟨low, high⟩ := keeps.load_store memory (Word.high word) (Word.low word)
  rw [cellBelow_succ_add_one] at low high
  have moved : after.1 = { registers with sp := cellBelow base (2 * (stack.length + 1)) } := by
    rw [written, Nat.mul_add]
  have under : Holds base after.2 stack := by
    refine holds.of_load_eq fun distance positive last => load_push_of_apart word ?_ ?_
    · rw [first]
      exact (window.apart distance _ positive (by omega) (by omega)).symm
    · rw [second]
      exact (window.apart distance _ positive (by omega) (by omega)).symm
  refine ⟨moved, ⟨congrArg Registers.sp moved, ?_, ?_, under⟩, fun address out => ?_⟩
  · rw [written]
    exact low
  · rw [written]
    exact high
  · refine load_push_of_apart word ?_ ?_
    · rw [first]
      exact out _ (by omega) (by omega)
    · rw [second]
      exact out _ (by omega) (by omega)

open StackOperation

/-- A sequence of operations does on the memory what it does on the list, and changes nothing out of
the reach of the stack. -/
theorem Represents.performAll (window : StackWindow μ base limit) {operations : List StackOperation}
    {popped rest : List UInt16} (represents : Represents base memory registers.sp stack)
    (found : replay operations stack = some (popped, rest))
    (stays : Stays limit stack.length operations) :
    let after := (StackOperation.performAll registers operations).run memory
    after.1 = (popped, { registers with sp := cellBelow base (2 * rest.length) }) ∧
      Represents base after.2 (cellBelow base (2 * rest.length)) rest ∧
      ∀ address, OutOfReach μ base limit address → load after.2 address = load memory address := by
  -- What the later operations need of the memory is only that the stack is represented there.
  induction operations generalizing registers memory stack popped with
  | nil =>
    cases found
    have still : { registers with sp := cellBelow base (2 * rest.length) } = registers := by
      rw [← represents.pointer]
    rw [still]
    exact ⟨rfl, ⟨rfl, represents.holds⟩, fun _ _ => rfl⟩
  | cons operation later ih =>
    cases operation with
    | push word =>
      obtain ⟨room, stays⟩ := stays.push
      obtain ⟨moved, pushed, kept⟩ := represents.push window room word
      obtain ⟨result, represented, kept'⟩ := ih pushed found stays
      rw [run_performAll_push]
      refine ⟨?_, represented, fun address out => (kept' address out).trans (kept address out)⟩
      rw [result, moved]
    | pop =>
      obtain ⟨word, below, words, rfl, rfl, remaining⟩ := replay_pop found
      obtain ⟨taken, moved, same, left⟩ := represents.pop
      obtain ⟨result, represented, kept⟩ := ih left remaining stays.pop
      rw [run_performAll_pop, same]
      refine ⟨?_, represented, kept⟩
      rw [result, taken, moved]

/-- The processor's stack is a list of words to which words are only added, and from which they are
only taken, at the front. Each pop returns the word of the push that it matches, the stack pointer
moves by two bytes for each word on the stack, and no other byte changes. -/
theorem performAll_lifo (registers : Registers) (memory : μ) {operations : List StackOperation}
    (lawful : Lawful operations) (limited : ∀ made, made <+: operations → depth made ≤ limit)
    (window : StackWindow μ registers.sp limit) :
    let after := (StackOperation.performAll registers operations).run memory
    (∃ stack, replay operations [] = some (after.1.1, stack)) ∧
    (∀ before word between later,
      operations = before ++ .push word :: (between ++ .pop :: later) → Balanced between →
      after.1.1[pops (before ++ between)]? = some word) ∧
    after.1.2 = { registers with sp := registers.sp - .ofNat (2 * depth operations) } ∧
    (∀ address, OutOfReach μ registers.sp limit address →
      load after.2 address = load memory address) := by
  intro after
  obtain ⟨popped, stack, found⟩ := lawful.exists_replay
  have stays : Stays limit 0 operations := lawful.stays limited
  obtain ⟨result, -, kept⟩ := (Represents.empty registers.sp memory).performAll window found stays
  have height : stack.length = depth operations := by
    have counted := (length_replay found).2
    have enough := lawful operations (List.prefix_refl _)
    rw [List.length_nil] at counted
    rw [depth]
    omega
  have words : after.1.1 = popped := congrArg Prod.fst result
  refine ⟨⟨stack, words.symm ▸ found⟩, ?matching, ?pointer, kept⟩
  case matching =>
    rintro before word between later rfl balanced
    rw [words]
    exact replay_matching balanced found
  case pointer =>
    rw [← height]
    exact congrArg Prod.snd result

end

end DotMatrix
