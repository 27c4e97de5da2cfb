import DotMatrix.Proofs.Machine.History

/-!
# What stands in ROM

A program sees the cartridge that was last put into the slot: its first 32 KiB, then zeros. Nothing
that happens afterwards changes them, short of another cartridge. Whatever part of the machine
writes, it does so over the bus, and there a write to ROM is lost; a reset maps the same cartridge
again.

Results:
1. `MemoryMap.load_run_of_not_writable`: no transaction changes a byte that ignores writes.
2. `Maps.act`: an action that inserts nothing keeps the image that a machine maps.
3. `rom_immutable`: the same for any history.
-/

namespace DotMatrix

open Memory

namespace MemoryMap

theorem load_run_of_not_writable {α : Type} (t : Transaction α) (memory : MemoryMap)
    {address : UInt16} (fixed : ¬ Region.Writable address) :
    load (t.run memory).2 address = load memory address := by
  have nothing := fun access (_ : access ∈ (t.accesses memory).reverse) =>
    left_of_not_writable fixed access
  rw [PlainMemory.load_run, List.findSome?_eq_none_iff.2 nothing, Option.getD_none]

theorem not_writable_rom {address : UInt16} (rom : address ≤ 0x7FFF) :
    ¬ Region.Writable address := by
  rintro ⟨above, -⟩
  simp only [UInt16.le_iff_toNat_le, UInt16.reduceToNat] at rom above
  omega

/-- The cartridge in the slot is the one that is read, however long the one before it was. -/
theorem load_insert (memory : MemoryMap) (image : Cartridge.Image) {address : UInt16}
    (rom : address ≤ 0x7FFF) : load (memory.insert image) address = image.getD address.toNat 0 := by
  have below : address.toNat < Region.rom.size := by
    simp only [UInt16.le_iff_toNat_le, UInt16.reduceToNat] at rom
    exact Nat.lt_succ_of_le rom
  have place : Region.locate address = ⟨.rom, address.toNat, below⟩ := dif_pos below
  change (memory.insert image).get (Region.locate address) = _
  rw [place]
  exact Cartridge.getElem_mapped image address.toNat below

/-- Other regions have storage of their own. -/
theorem get_withRom (memory : MemoryMap) (rom : Region.rom.Bank) {place : Location}
    (other : place.region ≠ .rom) : get { memory with rom } place = memory.get place := by
  obtain ⟨region, offset⟩ := place
  cases region with
  | rom => exact absurd rfl other
  | _ => rfl

theorem load_insert_of_not_rom (memory : MemoryMap) (image : Cartridge.Image) {address : UInt16}
    (above : ¬ address ≤ 0x7FFF) : load (memory.insert image) address = load memory address := by
  refine memory.get_withRom (Cartridge.mapped image) fun rom => above ?_
  have inside := Region.base_add_offset_locate address
  have bound := (Region.locate address).offset.isLt
  simp only [rom, Region.base, Region.size] at inside bound
  simp only [UInt16.le_iff_toNat_le, UInt16.reduceToNat]
  omega

/-- A cartridge without bytes reads like an empty slot. -/
theorem insert_empty : initial.insert #[] = initial := by
  have blank : Cartridge.mapped #[] = initial.rom := Vector.ext fun offset bound => by
    rw [Cartridge.getElem_mapped]
    exact (Vector.getElem_replicate bound).symm
  rw [insert, blank]

end MemoryMap

namespace Machine

/-- An image is in the slot, and it is what the ROM region reads as. -/
structure Maps (image : Cartridge.Image) (machine : Machine) : Prop where
  slot : machine.cartridge = image
  rom : ∀ address : UInt16, address ≤ 0x7FFF →
    load machine.memory address = image.getD address.toNat 0

namespace Maps

variable {image : Cartridge.Image} {machine : Machine}

theorem insert (machine : Machine) (image : Cartridge.Image) :
    (machine.insert image).Maps image where
  slot := rfl
  rom _ rom := machine.memory.load_insert image rom

/-- Whatever runs on the memory, the slot and the ROM region stay. -/
theorem run {α : Type} (maps : machine.Maps image) (t : Transaction α) (board : Board) :
    Maps image ⟨board, (t.run machine.memory).2, machine.cartridge⟩ where
  slot := maps.slot
  rom address rom := by
    have kept := machine.memory.load_run_of_not_writable t (MemoryMap.not_writable_rom rom)
    exact kept.trans (maps.rom address rom)

theorem written (maps : machine.Maps image) (write : MemoryMap.Write) :
    (machine.written write).Maps image :=
  maps.run write.transaction machine.board

theorem step (maps : machine.Maps image) : machine.step.2.Maps image :=
  maps.run machine.board.step _

/-- A reset maps the cartridge in the slot again. -/
theorem reset (maps : machine.Maps image) : machine.reset.Maps image := by
  have mapped : Maps image ⟨machine.board, MemoryMap.initial.insert machine.cartridge,
      machine.cartridge⟩ := by
    rw [maps.slot]
    exact ⟨rfl, fun _ rom => MemoryMap.initial.load_insert image rom⟩
  exact mapped.run (Bus.setMode Beam.start.mode.bits) _

theorem act (maps : machine.Maps image) {action : Action} (none : action.image? = none) :
    (machine.act action).Maps image := by
  cases action with
  | insert other => cases none
  | reset => exact maps.reset
  | step => exact maps.step
  | runFrames frames maxCycles =>
    exact invariant_runFrames (fun _ maps => maps.step) maps frames maxCycles
  | runUntilSerial maxCycles =>
    exact invariant_runUntilSerial (fun _ maps => maps.step) maps maxCycles
  | stepCpu =>
    rw [act_stepCpu]
    exact maps.run machine.board.cpu.step _
  | poll =>
    rw [act_poll]
    exact maps.run machine.board.serial.poll _
  | tick dots =>
    rw [act_tick]
    exact maps.run (machine.board.ppu.tick dots) _
  | write write => exact maps.written write

end Maps

/-- Once an image is inserted into any machine, a byte of the ROM region reads as the byte of the
image, or as zero beyond its end, through every history in which no other image is inserted. -/
theorem rom_immutable (machine : Machine) (image : Cartridge.Image) (actions : List Action)
    (kept : ∀ action ∈ actions, action.image? = none) (address : UInt16) (rom : address ≤ 0x7FFF) :
    load (replay actions (machine.insert image)).memory address = image.getD address.toNat 0 := by
  have shown : (replay actions (machine.insert image)).Maps image :=
    invariant_replay (fun action member _ maps => maps.act (kept action member))
      (Maps.insert machine image)
  exact shown.rom address rom

/-- A program that stores to itself, pushes and calls itself without end, in place of a longer one.
Between its runs it is written to from outside, and the machine is reset. -/
theorem rom_immutable_endless :
    let program : Cartridge.Image := .replicate 0x100 0x00 ++ #[0x77, 0xF5, 0xC7]
    let longer : Cartridge.Image := .replicate 40000 0xFF
    let actions : List Action := [.runFrames 2 1000000, .write (.word 0xFFFF 0x1234), .step, .reset,
      .write (.byte 0x0101 0x00), .runUntilSerial 1000000, .tick 456, .stepCpu, .poll]
    let start := ((Machine.initial {}).insert longer).insert program
    (∀ action ∈ actions, action.image? = none) ∧
      [0x0100, 0x0101, 0x7FFF].map (load (replay actions start).memory) = [0x77, 0xF5, 0x00] := by
  intro program longer actions start
  have kept : ∀ action ∈ actions, action.image? = none := by decide
  have rom := rom_immutable ((Machine.initial {}).insert longer) program actions kept
  refine ⟨kept, ?_⟩
  simp only [List.map_cons, List.map_nil]
  rw [rom 0x0100 (by decide), rom 0x0101 (by decide), rom 0x7FFF (by decide)]
  decide +kernel

end Machine

end DotMatrix
