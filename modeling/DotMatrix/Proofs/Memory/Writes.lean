import DotMatrix.Bus.HardwareRegister
import DotMatrix.Memory.Plain

/-!
# The memory as one address space

However many regions with storage of their own there are, a program sees one memory: a byte reads as
what was last written to it, and a word is two bytes. Only three things are special: the echo region
shows the work RAM, ROM keeps its bytes, and the unusable region reads as $FF.

Results:
1. `PlainMemory.load_run`, `PlainMemory.load_run_of_apart`, `PlainMemory.write_of_load_run_ne`: what a
   byte of a plain memory reads as after any transaction; it is kept if its place is not written to.
2. `PlainMemory.KeepsWord.load_store`: a word reads back as what was written.
3. `MemoryMap.getElem?_cells`: a location's offset lies inside the storage that is read.
4. `MemoryMap.load_performAll`: what a byte of the console reads as after any history of writes.
5. `MemoryMap.memory_law`: the law of the console's memory.
-/

namespace DotMatrix

open Memory

/-! ## Written addresses -/

namespace Transaction

variable {μ α β : Type} [Memory μ]

/-- The addresses that a transaction writes to on a memory, in order. -/
def writes (t : Transaction α) (memory : μ) : List UInt16 :=
  ((t.accesses memory).filter Access.isWrite).map Access.address

@[simp] theorem writes_pure (result : α) (memory : μ) :
    (pure result : Transaction α).writes memory = [] := rfl

@[simp] theorem writes_bind (t : Transaction α) (f : α → Transaction β) (memory : μ) :
    (t >>= f).writes memory = t.writes memory ++ (f (t.run memory).1).writes (t.run memory).2 := by
  simp [writes]

@[simp] theorem writes_map (f : α → β) (t : Transaction α) (memory : μ) :
    (f <$> t).writes memory = t.writes memory := by
  simp [writes]

@[simp] theorem writes_read (address : UInt16) (memory : μ) :
    (Bus.read address).writes memory = [] := rfl

@[simp] theorem writes_write (address : UInt16) (value : UInt8) (memory : μ) :
    (Bus.write address value).writes memory = [address] := rfl

@[simp] theorem writes_report (event : Event) (memory : μ) :
    (Bus.report event).writes memory = [] := rfl

theorem mem_writes {t : Transaction α} {memory : μ} {address : UInt16} {value : UInt8}
    (made : .write address value ∈ t.accesses memory) : address ∈ t.writes memory :=
  List.mem_map.2 ⟨.write address value, List.mem_filter.2 ⟨made, rfl⟩, rfl⟩

end Transaction

/-! ## Histories of plain memories -/

namespace PlainMemory

variable {μ : Type} [Memory μ] [PlainMemory μ]

/-- What an access leaves at the place of an address, if it writes there and the place keeps it. -/
def left (μ : Type) [Memory μ] [PlainMemory μ] (address : UInt16) : Access → Option UInt8
  | .read _ => none
  | .write written value =>
    if keeps μ written ∧ canonical μ written = canonical μ address then some value else none

theorem load_apply (memory : μ) (access : Access) (address : UInt16) :
    load (apply memory access) address = (left μ address access).getD (load memory address) := by
  cases access with
  | read => rfl
  | write written value =>
    rw [apply, load_store, left]
    split <;> rfl

/-- A byte reads as what the last of the accesses left there, or else as before. -/
theorem load_foldl_apply (accesses : List Access) (memory : μ) (address : UInt16) :
    load (accesses.foldl apply memory) address =
      (accesses.reverse.findSome? (left μ address)).getD (load memory address) := by
  induction accesses generalizing memory with
  | nil => rfl
  | cons access later ih =>
    rw [List.foldl_cons, ih, load_apply, List.reverse_cons, List.findSome?_append]
    cases later.reverse.findSome? (left μ address) with
    | none => simp
    | some value => rfl

theorem load_run {α : Type} (t : Transaction α) (memory : μ) (address : UInt16) :
    load (t.run memory).2 address =
      ((t.accesses memory).reverse.findSome? (left μ address)).getD (load memory address) := by
  rw [t.run_eq_store, load_foldl_apply]

/-- A byte keeps its value when nothing is written to its place. -/
theorem load_run_of_apart {α : Type} {t : Transaction α} {memory : μ} {address : UInt16}
    (apart : ∀ written ∈ t.writes memory, canonical μ written ≠ canonical μ address) :
    load (t.run memory).2 address = load memory address := by
  have nothing (access : Access) (made : access ∈ (t.accesses memory).reverse) :
      left μ address access = none := by
    cases access with
    | read => rfl
    | write written value =>
      have listed : written ∈ t.writes memory := Transaction.mem_writes (List.mem_reverse.1 made)
      exact if_neg fun both => apart written listed both.2
  rw [load_run, List.findSome?_eq_none_iff.2 nothing, Option.getD_none]

/-- A hardware register that has another value afterwards was written to, with that value. -/
theorem write_of_load_run_ne {α : Type} {t : Transaction α} {memory : μ} {address : UInt16}
    (high : 0xFF00 ≤ address)
    (changed : load (t.run memory).2 address ≠ load memory address) :
    .write address (load (t.run memory).2 address) ∈ t.accesses memory := by
  rw [load_run] at changed ⊢
  cases found : (t.accesses memory).reverse.findSome? (left μ address) with
  | none =>
    rw [found] at changed
    exact absurd rfl changed
  | some value =>
    obtain ⟨access, made, wrote⟩ := List.exists_of_findSome?_eq_some found
    cases access with
    | read => cases wrote
    | write written byte =>
      obtain ⟨⟨-, same⟩, stored⟩ := Option.ite_none_right_eq_some.1 wrote
      obtain rfl : address = written := canonical_hardware address written high same.symm
      obtain rfl : byte = value := Option.some.inj stored
      exact List.mem_reverse.1 made

end PlainMemory

/-! ## Words in memory -/

/-- Addresses that follow each other are never shown in one place. -/
theorem Region.canonical_succ_ne (address : UInt16) :
    canonical address ≠ canonical (address + 1) := by
  intro same
  have bound := address.toNat_lt
  rw [← UInt16.toNat_inj, toNat_canonical, toNat_canonical, UInt16.toNat_add] at same
  simp only [UInt16.reduceToNat] at same
  split at same <;> split at same <;> omega

namespace PlainMemory

/-- A word written at the address stays there: each of its bytes has a place of its own, and that
keeps it. -/
structure KeepsWord (μ : Type) [Memory μ] [PlainMemory μ] (address : UInt16) : Prop where
  low : keeps μ address = true
  high : keeps μ (address + 1) = true
  apart : canonical μ address ≠ canonical μ (address + 1)

theorem keepsWord_flat (address : UInt16) : KeepsWord FlatMemory address where
  low := rfl
  high := rfl
  apart := by
    change address ≠ address + 1
    simp

theorem keepsWord_map {address : UInt16} (low : Region.Writable address)
    (high : Region.Writable (address + 1)) : KeepsWord MemoryMap address where
  low := decide_eq_true low
  high := decide_eq_true high
  apart := Region.canonical_succ_ne address

theorem KeepsWord.load_store {μ : Type} [Memory μ] [PlainMemory μ] {address : UInt16}
    (kept : KeepsWord μ address) (memory : μ) (high low : UInt8) :
    let written := store (store memory (address + 1) high) address low
    load written address = low ∧ load written (address + 1) = high := by
  intro written
  constructor
  · rw [PlainMemory.load_store, if_pos ⟨kept.low, rfl⟩]
  · rw [PlainMemory.load_store, if_neg fun both => kept.apart both.2, PlainMemory.load_store,
      if_pos ⟨kept.high, rfl⟩]

end PlainMemory

/-! ## Storage -/

namespace MemoryMap

/-- The storage that a region's bytes are read from; the unusable region has none. -/
def cells (memory : MemoryMap) : Region → Array UInt8
  | .rom => memory.rom.toArray
  | .videoRam => memory.videoRam.toArray
  | .externalRam => memory.externalRam.toArray
  | .workRam => memory.workRam.toArray
  | .echo => memory.workRam.toArray
  | .oam => memory.oam.toArray
  | .unusable => #[]
  | .io => memory.io.toArray
  | .highRam => memory.highRam.toArray

/-- The offset of a location lies inside the storage of its region, and the byte there is what is
read. -/
theorem getElem?_cells (memory : MemoryMap) (place : Location) (stored : place.region ≠ .unusable) :
    (memory.cells place.region)[place.offset.val]? = some (memory.get place) := by
  obtain ⟨region, offset, bound⟩ := place
  cases region with
  | unusable => exact absurd rfl stored
  | echo =>
    have inside : offset < Region.workRam.size := Nat.lt_trans bound (by decide)
    simp [cells, get, echoed, inside]
  | _ => simp [cells, get, Region.size]

/-! ## What no write changes -/

theorem load_unusable (memory : MemoryMap) {address : UInt16} (low : 0xFEA0 ≤ address)
    (high : address ≤ 0xFEFF) : load memory address = 0xFF := by
  simp only [UInt16.le_iff_toNat_le, UInt16.reduceToNat] at low high
  have unusable : (Region.locate address).region = .unusable := by
    fun_cases Region.locate address <;> first | rfl | omega
  have read (place : Location) (found : place.region = .unusable) : memory.get place = 0xFF := by
    obtain ⟨region, offset⟩ := place
    cases found
    rfl
  exact read _ unusable

/-- Addresses that stand for one place either both keep what is written or both do not. -/
theorem writable_of_canonical_eq {address other : UInt16} (writable : Region.Writable other)
    (same : Region.canonical address = Region.canonical other) : Region.Writable address := by
  have number := congrArg UInt16.toNat same
  rw [Region.toNat_canonical, Region.toNat_canonical] at number
  simp only [Region.Writable, UInt16.le_iff_toNat_le, UInt16.lt_iff_toNat_lt,
    UInt16.reduceToNat] at writable ⊢
  split at number <;> split at number <;> omega

theorem left_of_writable {address : UInt16} (writable : Region.Writable address)
    (written : UInt16) (value : UInt8) :
    PlainMemory.left MemoryMap address (.write written value) =
      if Region.canonical written = Region.canonical address then some value else none := by
  by_cases same : Region.canonical written = Region.canonical address
  · have keeps : PlainMemory.keeps MemoryMap written = true :=
      decide_eq_true (writable_of_canonical_eq writable same)
    rw [if_pos same]
    exact if_pos ⟨keeps, same⟩
  · rw [if_neg same]
    exact if_neg fun both => same both.2

theorem left_of_not_writable {address : UInt16} (fixed : ¬ Region.Writable address)
    (access : Access) : PlainMemory.left MemoryMap address access = none := by
  cases access with
  | read => rfl
  | write written value =>
    refine if_neg fun both => fixed ?_
    exact writable_of_canonical_eq (of_decide_eq_true both.1) both.2.symm

/-! ## The law -/

/-- A write of a program. -/
inductive Write where
  | byte (address : UInt16) (value : UInt8)
  | word (address : UInt16) (value : UInt16)
deriving DecidableEq, Repr

namespace Write

/-- The write on the bus. -/
def transaction : Write → Transaction Unit
  | .byte address value => Bus.write address value
  | .word address value => Bus.writeWord address value

/-- The bytes that are written, with their addresses: of a word the lower byte first, then the upper
one at the next address, which wraps. -/
def bytes : Write → List (UInt16 × UInt8)
  | .byte address value => [(address, value)]
  | .word address value => [(address, Word.low value), (address + 1, Word.high value)]

end Write

/-- The writes of a history, one after the other. -/
def performAll : List Write → Transaction Unit
  | [] => return ()
  | write :: later => do
    write.transaction
    performAll later

/-- The last of the written bytes whose address stands for the place of `address`. -/
def lastWritten (address : UInt16) (bytes : List (UInt16 × UInt8)) : Option UInt8 :=
  bytes.reverse.findSome? fun byte =>
    if Region.canonical byte.1 = Region.canonical address then some byte.2 else none

theorem accesses_performAll {μ : Type} [Memory μ] (writes : List Write) (memory : μ) :
    (performAll writes).accesses memory =
      (writes.flatMap Write.bytes).map fun byte => .write byte.1 byte.2 := by
  induction writes generalizing memory with
  | nil => rfl
  | cons write later ih =>
    cases write <;> simp [performAll, Write.transaction, Write.bytes, Bus.writeWord, ih]

/-- What a byte reads as after a history of writes. -/
theorem load_performAll (memory : MemoryMap) (writes : List Write) (address : UInt16) :
    load ((performAll writes).run memory).2 address =
      if 0xFEA0 ≤ address ∧ address ≤ 0xFEFF then 0xFF
      else if address ≤ 0x7FFF then load memory address
      else (lastWritten address (writes.flatMap Write.bytes)).getD (load memory address) := by
  by_cases unusable : 0xFEA0 ≤ address ∧ address ≤ 0xFEFF
  · rw [if_pos unusable]
    exact load_unusable _ unusable.1 unusable.2
  rw [if_neg unusable, PlainMemory.load_run, accesses_performAll]
  by_cases rom : address ≤ 0x7FFF
  · have fixed : ¬ Region.Writable address := by
      rintro ⟨above, -⟩
      simp only [UInt16.le_iff_toNat_le, UInt16.reduceToNat] at rom above
      omega
    rw [if_pos rom, List.findSome?_eq_none_iff.2 fun access _ => left_of_not_writable fixed access]
    rfl
  · have writable : Region.Writable address := by
      simp only [Region.Writable, UInt16.le_iff_toNat_le, UInt16.lt_iff_toNat_lt,
        UInt16.reduceToNat] at unusable rom ⊢
      omega
    rw [if_neg rom, ← List.map_reverse, List.findSome?_map, lastWritten]
    congr 2
    funext byte
    exact left_of_writable writable byte.1 byte.2

/-- The law of the console's memory. After any history of writes, a byte of the unusable region reads
as $FF and a byte of ROM as before; any other byte reads as what was last written to its place, or as
before if nothing was. Each address is found at its distance from the start of its region, inside
the storage that is read. A word is its lower byte and 256 times the byte at the next address. -/
theorem memory_law (memory : MemoryMap) (writes : List Write) (address : UInt16) :
    let after := ((performAll writes).run memory).2
    let place := Region.locate address
    let word := (Bus.readWord address).run after
    load after address =
      (if 0xFEA0 ≤ address ∧ address ≤ 0xFEFF then 0xFF
      else if address ≤ 0x7FFF then load memory address
      else (lastWritten address (writes.flatMap Write.bytes)).getD (load memory address)) ∧
    place.region.base + place.offset = address.toNat ∧
    (place.region = .unusable ∨
      (after.cells place.region)[place.offset.val]? = some (load after address)) ∧
    word.1.toNat = (load after address).toNat + 256 * (load after (address + 1)).toNat ∧
    word.2 = after := by
  intro after place word
  have inside : place.region = .unusable ∨
      (after.cells place.region)[place.offset.val]? = some (load after address) := by
    by_cases stored : place.region = .unusable
    · exact .inl stored
    · exact .inr (after.getElem?_cells place stored)
  have joined : word.1.toNat = _ := Word.toNat_join _ _
  rw [Nat.add_comm] at joined
  exact ⟨load_performAll memory writes address, Region.base_add_offset_locate address, inside,
    joined, rfl⟩

/-- A word that is written from the top of the address space on: its lower byte becomes the
interrupt enable register, its upper one is lost in ROM. -/
example : (Write.word 0xFFFF 0x1234).bytes = [(0xFFFF, 0x34), (0x0000, 0x12)] := by decide

end MemoryMap

end DotMatrix
