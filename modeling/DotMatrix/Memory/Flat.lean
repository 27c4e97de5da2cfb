import DotMatrix.Bus.Memory

/-!
# Flat memory

64 KiB of plain read/write memory, with no region that behaves otherwise.
-/

namespace DotMatrix

/-- 65536 bytes, every one readable and writable. -/
structure FlatMemory where
  /-- The bytes by address. -/
  cells : Vector UInt8 65536

namespace FlatMemory

/-- All bytes are zero. -/
def blank : FlatMemory := ⟨Vector.replicate 65536 0⟩

instance : Memory FlatMemory where
  load memory address := memory.cells[address.toFin]
  store memory address value := ⟨memory.cells.set address.toFin value⟩

/-- A write shows at its own address and nowhere else. -/
theorem load_store (memory : FlatMemory) (address other : UInt16) (value : UInt8) :
    Memory.load (Memory.store memory address value) other =
      if other = address then value else Memory.load memory other := by
  simp only [Memory.load, Memory.store, Fin.getElem_fin, Vector.getElem_set, UInt16.toFin_val,
    UInt16.toNat_inj]
  by_cases same : other = address
  · simp [same]
  · simp [same, Ne.symm same]

/-- Memories that read alike everywhere are the same. -/
theorem eq_of_load_eq {memory other : FlatMemory}
    (same : ∀ address, Memory.load memory address = Memory.load other address) :
    memory = other := by
  obtain ⟨cells⟩ := memory
  obtain ⟨cells'⟩ := other
  refine congrArg _ (Vector.ext fun address bound => ?_)
  simpa [Memory.load, Nat.mod_eq_of_lt bound] using same (.ofNat address)

@[simp] theorem load_blank (address : UInt16) : Memory.load blank address = 0 := by
  simp [Memory.load, blank]

end FlatMemory

end DotMatrix
