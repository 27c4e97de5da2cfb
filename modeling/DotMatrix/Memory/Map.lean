import DotMatrix.Bus.Memory
import DotMatrix.Cartridge

/-!
# The memory map

The console's memory, one bank of bytes for each region that has storage. The echo region has none:
it shows the work RAM. ROM and the unusable region ignore writes. Main statements: `load_store`, which
says what any byte reads as after any write, and `eq_of_load_eq`: a memory is nothing but its bytes.
-/

namespace DotMatrix

/-- The console's memory by region. -/
structure MemoryMap where
  /-- Cartridge ROM. -/
  rom : Region.rom.Bank
  /-- Tile data and tile maps. -/
  videoRam : Region.videoRam.Bank
  /-- Memory on the cartridge. -/
  externalRam : Region.externalRam.Bank
  /-- Memory of the console. -/
  workRam : Region.workRam.Bank
  /-- Attributes of the sprites. -/
  oam : Region.oam.Bank
  /-- Hardware registers. -/
  io : Region.io.Bank
  /-- High memory and the interrupt enable register. -/
  highRam : Region.highRam.Bank

namespace MemoryMap

/-- The byte that an offset of the echo region stands for. -/
def echoed (offset : Fin Region.echo.size) : Fin Region.workRam.size := offset.castLE (by decide)

/-- The byte at a location. -/
@[inline] def get (memory : MemoryMap) (location : Location) : UInt8 :=
  match location with
  | ⟨.rom, offset⟩ => memory.rom[offset]
  | ⟨.videoRam, offset⟩ => memory.videoRam[offset]
  | ⟨.externalRam, offset⟩ => memory.externalRam[offset]
  | ⟨.workRam, offset⟩ => memory.workRam[offset]
  | ⟨.echo, offset⟩ => memory.workRam[echoed offset]
  | ⟨.oam, offset⟩ => memory.oam[offset]
  | ⟨.unusable, _⟩ => 0xFF
  | ⟨.io, offset⟩ => memory.io[offset]
  | ⟨.highRam, offset⟩ => memory.highRam[offset]

/-- The memory after a byte is written to a location. -/
@[inline] def set (memory : MemoryMap) (location : Location) (value : UInt8) : MemoryMap :=
  match location with
  | ⟨.rom, _⟩ => memory
  | ⟨.videoRam, offset⟩ => { memory with videoRam := memory.videoRam.set offset value }
  | ⟨.externalRam, offset⟩ => { memory with externalRam := memory.externalRam.set offset value }
  | ⟨.workRam, offset⟩ => { memory with workRam := memory.workRam.set offset value }
  | ⟨.echo, offset⟩ => { memory with workRam := memory.workRam.set (echoed offset) value }
  | ⟨.oam, offset⟩ => { memory with oam := memory.oam.set offset value }
  | ⟨.unusable, _⟩ => memory
  | ⟨.io, offset⟩ => { memory with io := memory.io.set offset value }
  | ⟨.highRam, offset⟩ => { memory with highRam := memory.highRam.set offset value }

instance : Memory MemoryMap where
  load memory address := memory.get (Region.locate address)
  store memory address value := memory.set (Region.locate address) value
  onStore _ address value :=
    if address < 0x8000 then some (.romWriteIgnored address value) else none

/-- The hardware registers as the boot program leaves them. -/
def initialIo : Region.io.Bank :=
  (((((Vector.replicate 0x80 0
    |>.set 0x00 0xCF)  -- joypad
    |>.set 0x02 0x7E)  -- serial control
    |>.set 0x0F 0xE1)  -- interrupt requests
    |>.set 0x40 0x91)  -- LCD control
    |>.set 0x41 0x85)  -- LCD status
    |>.set 0x47 0xFC   -- background palette

/-- The memory when the boot program hands over, with no cartridge. -/
def initial : MemoryMap where
  rom := Vector.replicate _ 0
  videoRam := Vector.replicate _ 0
  externalRam := Vector.replicate _ 0
  workRam := Vector.replicate _ 0
  oam := Vector.replicate _ 0
  io := initialIo
  highRam := Vector.replicate _ 0

/-- The memory with a cartridge image in its ROM region. -/
def insert (memory : MemoryMap) (image : Cartridge.Image) : MemoryMap :=
  { memory with rom := Cartridge.mapped image }

/-! ## What a byte reads as after a write -/

theorem get_set_of_slot_ne (memory : MemoryMap) {place other : Location} (value : UInt8)
    (apart : place.slot ≠ other.slot) : (memory.set place value).get other = memory.get other := by
  obtain ⟨region, offset, bound⟩ := place
  obtain ⟨region', offset', bound'⟩ := other
  cases region <;> cases region' <;> first
    | rfl
    | exact Vector.getElem_set_ne (Fin.isLt _) (Fin.isLt _) fun same =>
        apart (by simp_all [Location.slot, echoed])

theorem get_set_of_slot_eq (memory : MemoryMap) {place other : Location} (value : UInt8)
    (same : place.slot = other.slot) :
    (memory.set place value).get other =
      if place.region.keeps then value else memory.get other := by
  obtain ⟨region, offset, bound⟩ := place
  obtain ⟨region', offset', bound'⟩ := other
  cases region <;> cases region' <;>
    simp only [Region.size, Location.slot, Region.base] at bound bound' same <;>
    first
    | rfl
    | (exfalso; omega)
    | (obtain rfl : offset = offset' := by omega
       exact Vector.getElem_set_self (Fin.isLt _))

/-- A write shows at the addresses that stand for the same place, if that place keeps what is
written to it, and nowhere else. -/
theorem load_store (memory : MemoryMap) (address other : UInt16) (value : UInt8) :
    Memory.load (Memory.store memory address value) other =
      if Region.Writable address ∧ Region.canonical address = Region.canonical other then value
      else Memory.load memory other := by
  change (memory.set _ value).get _ = _
  by_cases same : Region.canonical address = Region.canonical other
  · rw [get_set_of_slot_eq memory value (by rw [Region.slot_locate, Region.slot_locate, same])]
    simp only [Region.keeps_locate, same, and_true]
    rfl
  · rw [get_set_of_slot_ne memory value (by
      rw [Region.slot_locate, Region.slot_locate]
      exact fun equal => same (UInt16.toNat_inj.1 equal)), if_neg fun both => same both.2]
    rfl

/-! ## Nothing but bytes -/

theorem get_eq_load (memory : MemoryMap) (location : Location) :
    memory.get location =
      Memory.load memory (.ofNat (location.region.base + location.offset)) := by
  change _ = memory.get (Region.locate _)
  rw [Region.locate_base_add]

/-- Memories that read alike everywhere are the same. -/
theorem eq_of_load_eq {memory other : MemoryMap}
    (same : ∀ address, Memory.load memory address = Memory.load other address) :
    memory = other := by
  have get_eq (location : Location) : memory.get location = other.get location := by
    rw [get_eq_load, get_eq_load, same]
  obtain ⟨rom, videoRam, externalRam, workRam, oam, io, highRam⟩ := memory
  obtain ⟨rom', videoRam', externalRam', workRam', oam', io', highRam'⟩ := other
  simp only [MemoryMap.mk.injEq]
  refine ⟨?_, ?_, ?_, ?_, ?_, ?_, ?_⟩ <;> refine Vector.ext fun offset bound => ?_
  · exact get_eq ⟨.rom, offset, bound⟩
  · exact get_eq ⟨.videoRam, offset, bound⟩
  · exact get_eq ⟨.externalRam, offset, bound⟩
  · exact get_eq ⟨.workRam, offset, bound⟩
  · exact get_eq ⟨.oam, offset, bound⟩
  · exact get_eq ⟨.io, offset, bound⟩
  · exact get_eq ⟨.highRam, offset, bound⟩

end MemoryMap

end DotMatrix
