/-!
# Regions of the address space

The 64 KiB address space falls into nine regions. `Region.locate` finds the region of an address and
the offset inside it; the offset carries its bound, so a region's bytes can be indexed with it.
-/

namespace DotMatrix

/-- One of the fixed regions of the address space. -/
inductive Region where
  /-- $0000-$7FFF: cartridge ROM. -/
  | rom
  /-- $8000-$9FFF: tile data and tile maps. -/
  | videoRam
  /-- $A000-$BFFF: memory on the cartridge. -/
  | externalRam
  /-- $C000-$DFFF: memory of the console. -/
  | workRam
  /-- $E000-$FDFF: shows $C000-$DDFF again, for reads and writes. -/
  | echo
  /-- $FE00-$FE9F: attributes of the sprites. -/
  | oam
  /-- $FEA0-$FEFF: reads as $FF and ignores writes. -/
  | unusable
  /-- $FF00-$FF7F: hardware registers. -/
  | io
  /-- $FF80-$FFFF: high memory, with the interrupt enable register as its last byte. -/
  | highRam
deriving DecidableEq, Repr

namespace Region

/-- The first address of a region. -/
def base : Region → Nat
  | .rom => 0x0000
  | .videoRam => 0x8000
  | .externalRam => 0xA000
  | .workRam => 0xC000
  | .echo => 0xE000
  | .oam => 0xFE00
  | .unusable => 0xFEA0
  | .io => 0xFF00
  | .highRam => 0xFF80

/-- How many addresses a region has. -/
abbrev size : Region → Nat
  | .rom => 0x8000
  | .videoRam => 0x2000
  | .externalRam => 0x2000
  | .workRam => 0x2000
  | .echo => 0x1E00
  | .oam => 0xA0
  | .unusable => 0x60
  | .io => 0x80
  | .highRam => 0x80

/-- Whether a region keeps what is written to it. -/
def keeps : Region → Bool
  | .rom => false
  | .unusable => false
  | _ => true

def name : Region → String
  | .rom => "Rom"
  | .videoRam => "VideoRam"
  | .externalRam => "ExternalRam"
  | .workRam => "WorkRam"
  | .echo => "Echo"
  | .oam => "Oam"
  | .unusable => "Unusable"
  | .io => "Io"
  | .highRam => "HighRam"

/-- The bytes of a region. -/
abbrev Bank (region : Region) : Type := Vector UInt8 region.size

end Region

/-- A place in a region. -/
structure Location where
  region : Region
  offset : Fin region.size
deriving Repr

/-- The address under which the byte at a location is kept: the echo region shows the work RAM. -/
def Location.slot : Location → Nat
  | ⟨.echo, offset⟩ => Region.workRam.base + offset
  | ⟨region, offset⟩ => region.base + offset

/-- A location is known by its address. -/
theorem Location.eq_of_address_eq {place other : Location}
    (same : place.region.base + place.offset.val = other.region.base + other.offset.val) :
    place = other := by
  obtain ⟨region, offset, bound⟩ := place
  obtain ⟨region', offset', bound'⟩ := other
  cases region <;> cases region' <;>
    simp only [Region.size, Region.base] at bound bound' same <;>
    first
    | (exfalso; omega)
    | (obtain rfl : offset = offset' := by omega
       rfl)

namespace Region

/-- The address that an address stands for: the echo region shows the work RAM. -/
def canonical (address : UInt16) : UInt16 :=
  if 0xE000 ≤ address ∧ address < 0xFE00 then address - 0x2000 else address

/-- The addresses at which a write has an effect. -/
def Writable (address : UInt16) : Prop :=
  0x8000 ≤ address ∧ ¬(0xFEA0 ≤ address ∧ address < 0xFF00)

instance (address : UInt16) : Decidable (Writable address) :=
  inferInstanceAs (Decidable (_ ∧ _))

/-- The region and offset of an address. Every address has exactly one. -/
@[inline] def locate (address : UInt16) : Location :=
  have bound : address.toNat < 0x10000 := address.toNat_lt
  if h₁ : address.toNat < 0x8000 then ⟨.rom, address.toNat, h₁⟩
  else if h₂ : address.toNat < 0xA000 then
    ⟨.videoRam, address.toNat - 0x8000, by simp only [size]; omega⟩
  else if h₃ : address.toNat < 0xC000 then
    ⟨.externalRam, address.toNat - 0xA000, by simp only [size]; omega⟩
  else if h₄ : address.toNat < 0xE000 then
    ⟨.workRam, address.toNat - 0xC000, by simp only [size]; omega⟩
  else if h₅ : address.toNat < 0xFE00 then
    ⟨.echo, address.toNat - 0xE000, by simp only [size]; omega⟩
  else if h₆ : address.toNat < 0xFEA0 then
    ⟨.oam, address.toNat - 0xFE00, by simp only [size]; omega⟩
  else if h₇ : address.toNat < 0xFF00 then
    ⟨.unusable, address.toNat - 0xFEA0, by simp only [size]; omega⟩
  else if h₈ : address.toNat < 0xFF80 then
    ⟨.io, address.toNat - 0xFF00, by simp only [size]; omega⟩
  else ⟨.highRam, address.toNat - 0xFF80, by simp only [size]; omega⟩

/-- An address is its region's base and its offset. -/
theorem base_add_offset_locate (address : UInt16) :
    (locate address).region.base + (locate address).offset.val = address.toNat := by
  fun_cases locate address <;> simp only [base] <;> omega

/-- Every location is found under its own address. -/
theorem locate_base_add (location : Location) :
    locate (.ofNat (location.region.base + location.offset)) = location := by
  apply Location.eq_of_address_eq
  have bound : location.region.base + location.offset.val < 65536 := by
    obtain ⟨region, offset, bound⟩ := location
    cases region <;> simp only [size, base] at bound ⊢ <;> omega
  rw [base_add_offset_locate, UInt16.toNat_ofNat_of_lt' bound]

theorem toNat_canonical (address : UInt16) :
    (canonical address).toNat =
      if 0xE000 ≤ address.toNat ∧ address.toNat < 0xFE00 then address.toNat - 0x2000
      else address.toNat := by
  simp only [canonical, UInt16.le_iff_toNat_le, UInt16.lt_iff_toNat_lt, UInt16.reduceToNat]
  by_cases echo : 57344 ≤ address.toNat ∧ address.toNat < 65024
  · rw [if_pos echo, if_pos echo]
    exact UInt16.toNat_sub_of_le _ _ (UInt16.le_iff_toNat_le.2 (Nat.le_trans (by decide) echo.1))
  · rw [if_neg echo, if_neg echo]

theorem slot_locate (address : UInt16) : (locate address).slot = (canonical address).toNat := by
  have := address.toNat_lt
  rw [toNat_canonical]
  by_cases echo : 0xE000 ≤ address.toNat ∧ address.toNat < 0xFE00
  · rw [if_pos echo]
    fun_cases locate address <;> simp [Location.slot, base] <;> omega
  · rw [if_neg echo]
    fun_cases locate address <;> simp [Location.slot, base] <;> omega

theorem keeps_locate (address : UInt16) : (locate address).region.keeps ↔ Writable address := by
  have := address.toNat_lt
  simp only [Writable, UInt16.le_iff_toNat_le, UInt16.lt_iff_toNat_lt, UInt16.reduceToNat]
  fun_cases locate address <;> simp [keeps] <;> omega

end Region

end DotMatrix
