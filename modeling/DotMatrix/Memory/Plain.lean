import DotMatrix.Memory.Flat
import DotMatrix.Memory.Map

/-!
# Plain memories

A plain memory has places that keep what is written to them and places that ignore it; several
addresses may stand for one place, but a hardware register has its place to itself and keeps what is
written. There is nothing in it but the bytes that can be read. Both memories of this library are
plain. What holds on every plain memory needs no look at regions.
-/

namespace DotMatrix

/-- A memory made of places that keep what is written to them or ignore it. -/
class PlainMemory (μ : Type) [Memory μ] where
  /-- The address that an address stands for. -/
  canonical : UInt16 → UInt16
  /-- Whether a write to an address has an effect. -/
  keeps : UInt16 → Bool
  /-- A write shows at the addresses of its place, if that keeps it, and nowhere else. -/
  load_store : ∀ (memory : μ) (address other : UInt16) (value : UInt8),
    Memory.load (Memory.store memory address value) other =
      if keeps address ∧ canonical address = canonical other then value
      else Memory.load memory other
  /-- Hardware registers keep what is written to them. -/
  keeps_hardware : ∀ address : UInt16, 0xFF00 ≤ address → keeps address = true
  /-- No other address stands for a hardware register. -/
  canonical_hardware : ∀ address other : UInt16, 0xFF00 ≤ address →
    canonical address = canonical other → address = other
  /-- Memories that read alike everywhere are the same. -/
  eq_of_load_eq : ∀ {memory other : μ},
    (∀ address, Memory.load memory address = Memory.load other address) → memory = other

instance : PlainMemory FlatMemory where
  canonical address := address
  keeps _ := true
  load_store memory address other value := by
    rw [FlatMemory.load_store]
    simp only [true_and, eq_comm]
  keeps_hardware _ _ := rfl
  canonical_hardware _ _ _ same := same
  eq_of_load_eq := FlatMemory.eq_of_load_eq

namespace Region

theorem writable_hardware {address : UInt16} (high : 0xFF00 ≤ address) : Writable address := by
  simp only [UInt16.le_iff_toNat_le, UInt16.reduceToNat] at high
  simp only [Writable, UInt16.le_iff_toNat_le, UInt16.lt_iff_toNat_lt, UInt16.reduceToNat]
  omega

theorem canonical_hardware {address other : UInt16} (high : 0xFF00 ≤ address)
    (same : canonical address = canonical other) : address = other := by
  simp only [UInt16.le_iff_toNat_le, UInt16.reduceToNat] at high
  rw [← UInt16.toNat_inj, toNat_canonical, toNat_canonical] at same
  apply UInt16.toNat_inj.1
  split at same <;> split at same <;> omega

end Region

instance : PlainMemory MemoryMap where
  canonical := Region.canonical
  keeps address := Region.Writable address
  load_store memory address other value := by
    rw [MemoryMap.load_store]
    simp only [decide_eq_true_eq]
  keeps_hardware _ high := decide_eq_true (Region.writable_hardware high)
  canonical_hardware _ _ := Region.canonical_hardware
  eq_of_load_eq := MemoryMap.eq_of_load_eq

namespace PlainMemory

variable {μ : Type} [Memory μ] [PlainMemory μ]

/-- What is written to a hardware register shows there and nowhere else. -/
theorem load_store_hardware {address : UInt16} (high : 0xFF00 ≤ address) (memory : μ)
    (other : UInt16) (value : UInt8) :
    Memory.load (Memory.store memory address value) other =
      if other = address then value else Memory.load memory other := by
  rw [load_store, keeps_hardware address high]
  by_cases same : other = address
  · simp [same]
  · have apart : canonical μ address ≠ canonical μ other := fun equal =>
      same (canonical_hardware address other high equal).symm
    simp [same, apart]

end PlainMemory

end DotMatrix
