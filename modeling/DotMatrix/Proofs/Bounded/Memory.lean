import DotMatrix.Memory.Map
import DotMatrix.Proofs.Bounded.Checked

/-!
# Offsets into the memory

A byte of the console's memory is found by subtracting the first address of its region and indexing
the region's bytes with what is left. Neither step can fail, for any of the 65536 addresses: the
regions cover the address space, and none of them reaches behind its bytes. So a calculation that
looks out for both has the same outcome as one on a memory that simply has a byte at every address.

Results:
1. `Region.locateChecked_eq`, `MemoryMap.loadChecked_eq`, `MemoryMap.storeChecked_eq`: single
   accesses.
2. `CheckedTransaction.runOn_eq`: any calculation.
-/

namespace DotMatrix

open Memory

/-- The region of an address, with the offset from its base. -/
def Region.locateChecked (address : UInt16) : Checked (Region × Nat) :=
  let behind (region : Region) (base : UInt16) : Checked (Region × Nat) := do
    let offset ← Checked.sub address base
    return (region, offset.toNat)
  if address ≤ 0x7FFF then return (.rom, address.toNat)
  else if address ≤ 0x9FFF then behind .videoRam 0x8000
  else if address ≤ 0xBFFF then behind .externalRam 0xA000
  else if address ≤ 0xDFFF then behind .workRam 0xC000
  else if address ≤ 0xFDFF then behind .echo 0xE000
  else if address ≤ 0xFE9F then behind .oam 0xFE00
  else if address ≤ 0xFEFF then behind .unusable 0xFEA0
  else if address ≤ 0xFF7F then behind .io 0xFF00
  else behind .highRam 0xFF80

theorem Region.locateChecked_eq (address : UInt16) :
    locateChecked address = .ok ((locate address).region, (locate address).offset.val) := by
  have behind (region : Region) {base : UInt16} (from_base : base.toNat ≤ address.toNat) :
      (do let offset ← Checked.sub address base; return (region, offset.toNat) :
        Checked (Region × Nat)) = .ok (region, address.toNat - base.toNat) := by
    have difference := UInt16.toNat_sub_of_le _ _ (UInt16.le_iff_toNat_le.2 from_base)
    have found : Checked.sub address base = .ok (address - base) := Checked.sub_eq_ok (by
      simp only [FixedWidth.toInt_word, difference]
      omega)
    rw [found]
    exact congrArg (fun offset => Except.ok (region, offset)) difference
  have := address.toNat_lt
  simp only [locateChecked, UInt16.le_iff_toNat_le, UInt16.reduceToNat]
  fun_cases locate address <;>
    first
    | (rw [if_pos (by omega)]; rfl)
    | (repeat' first | rw [if_pos (by omega)] | rw [if_neg (by omega)]
       exact behind _ (by simp only [UInt16.reduceToNat]; omega))

namespace MemoryMap

/-- Reads the byte at an address. -/
def loadChecked (memory : MemoryMap) (address : UInt16) : Checked UInt8 := do
  let (region, offset) ← Region.locateChecked address
  match region with
  | .rom => Checked.get memory.rom offset
  | .videoRam => Checked.get memory.videoRam offset
  | .externalRam => Checked.get memory.externalRam offset
  | .workRam | .echo => Checked.get memory.workRam offset
  | .oam => Checked.get memory.oam offset
  | .unusable => return 0xFF
  | .io => Checked.get memory.io offset
  | .highRam => Checked.get memory.highRam offset

/-- Writes a byte to an address. -/
def storeChecked (memory : MemoryMap) (address : UInt16) (value : UInt8) : Checked MemoryMap := do
  let (region, offset) ← Region.locateChecked address
  match region with
  | .rom | .unusable => return memory
  | .videoRam =>
    (fun videoRam => { memory with videoRam }) <$> Checked.set memory.videoRam offset value
  | .externalRam =>
    (fun externalRam => { memory with externalRam }) <$> Checked.set memory.externalRam offset value
  | .workRam | .echo =>
    (fun workRam => { memory with workRam }) <$> Checked.set memory.workRam offset value
  | .oam => (fun oam => { memory with oam }) <$> Checked.set memory.oam offset value
  | .io => (fun io => { memory with io }) <$> Checked.set memory.io offset value
  | .highRam => (fun highRam => { memory with highRam }) <$> Checked.set memory.highRam offset value

theorem loadChecked_eq (memory : MemoryMap) (address : UInt16) :
    memory.loadChecked address = .ok (load memory address) := by
  change _ = Except.ok (memory.get (Region.locate address))
  rw [loadChecked, Region.locateChecked_eq]
  obtain ⟨region, offset, bound⟩ := Region.locate address
  cases region with
  | unusable => rfl
  | echo =>
    have inside : offset < Region.workRam.size := Nat.lt_trans bound (by decide)
    exact Checked.get_eq_ok _ inside
  | _ => exact Checked.get_eq_ok _ bound

theorem storeChecked_eq (memory : MemoryMap) (address : UInt16) (value : UInt8) :
    memory.storeChecked address value = .ok (store memory address value) := by
  change _ = Except.ok (memory.set (Region.locate address) value)
  rw [storeChecked, Region.locateChecked_eq]
  obtain ⟨region, offset, bound⟩ := Region.locate address
  cases region with
  | rom | unusable => rfl
  | echo =>
    have inside : offset < Region.workRam.size := Nat.lt_trans bound (by decide)
    exact congrArg (Functor.map _) (Checked.set_eq_ok memory.workRam inside value)
  | _ => exact congrArg (Functor.map _) (Checked.set_eq_ok _ bound value)

end MemoryMap

namespace CheckedTransaction

variable {α : Type}

/-- Runs a calculation on the console's memory and looks out for faults there, too. -/
def runOn : Transaction (Checked α) → MemoryMap → Checked (α × MemoryMap)
  | .done result, memory => result.map (·, memory)
  | .read address next, memory => do runOn (next (← memory.loadChecked address)) memory
  | .write address value next, memory => do runOn next (← memory.storeChecked address value)
  | .report _ next, memory => runOn next memory

/-- The memory adds no faults. -/
theorem runOn_eq (t : CheckedTransaction α) (memory : MemoryMap) :
    runOn t.run memory = t.outcome memory := by
  suffices same : ∀ t : Transaction (Checked α),
      runOn t memory = (t.run memory).1.map (·, (t.run memory).2) from same t.run
  intro t
  induction t generalizing memory with
  | done result => rfl
  | read address next ih =>
    rw [runOn, memory.loadChecked_eq]
    exact ih _ memory
  | write address value next ih =>
    rw [runOn, memory.storeChecked_eq]
    exact ih _
  | report event next ih => exact ih memory

end CheckedTransaction

end DotMatrix
