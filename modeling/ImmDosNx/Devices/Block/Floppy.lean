import ImmDosNx.Devices.Driver
import ImmDosNx.Lib.Align

/-! The floppy block device (`devices/block/floppy.rs`, `devices/block/geometry.rs`).
A read widens the byte range at the cursor to the sectors that cover it, gives DMA
channel 2 their length less one, has the controller read from the first sector's
CHS address, and copies the bytes out of the DMA page from the cursor's offset in
the first sector. The read command (`hardware/floppy.rs` `dma`) has no multi-track
bit and names sector 18 as the end of the track, so the controller stops there. -/
namespace ImmDosNx.Block

open Fs Devices

def sectorsPerTrack : UInt32 := 18

def sectorSize : UInt32 := 512

def dmaSize : Nat := 4096

structure Sector where
  lba : UInt32
  deriving DecidableEq, Repr

def Sector.toChs (sector : Sector) : UInt32 × UInt32 × UInt32 :=
  let c := sector.lba / (2 * sectorsPerTrack)
  let h := sector.lba % (2 * sectorsPerTrack) / sectorsPerTrack
  let s := sector.lba % (2 * sectorsPerTrack) % sectorsPerTrack + 1
  (c, h, s)

structure SectorRange where
  first : Sector
  count : UInt32
  deriving DecidableEq, Repr

namespace SectorRange

def forByteRange (start length : UInt32) : SectorRange :=
  let sectorStart := start &&& ~~~(sectorSize - 1)
  let rangeEnd := start + length
  let sectorCount := (rangeEnd - sectorStart) / sectorSize
  let sectorCount := if rangeEnd &&& (sectorSize - 1) != 0 then sectorCount + 1 else sectorCount
  ⟨⟨sectorStart / sectorSize⟩, sectorCount⟩

def byteLength (r : SectorRange) : UInt32 := r.count * sectorSize

def getFirstSector (r : SectorRange) : Sector := r.first

def getLocalOffset (r : SectorRange) (absolute : UInt32) : UInt32 :=
  let start := r.first.lba * sectorSize
  if absolute < start then 0 else absolute - start

theorem getLocalOffsetSpec (r : SectorRange) {absolute : UInt32} (first : r.first.lba.toNat = absolute.toNat / 512) :
    (r.getLocalOffset absolute).toNat = absolute.toNat % 512 := by
  have bounded := absolute.toNat_lt
  have start : (r.first.lba * sectorSize).toNat = absolute.toNat / 512 * 512 := by
    rw [UInt32.toNat_mul, first, show sectorSize.toNat = 512 from rfl, Nat.mod_eq_of_lt (by omega)]
  have within : ¬ absolute < r.first.lba * sectorSize := by
    rw [UInt32.lt_iff_toNat_lt, start]
    omega
  simp only [getLocalOffset, within, if_false]
  rw [UInt32.toNat_sub_of_le _ _ (UInt32.le_iff_toNat_le.mpr (by rw [start]; omega)), start]
  omega

theorem forByteRangeSpec {start length : UInt32} (fits : start.toNat + length.toNat < 2 ^ 32) :
    (forByteRange start length).first.lba.toNat = start.toNat / 512 ∧
      (forByteRange start length).count.toNat = (start.toNat + length.toNat + 511) / 512 - start.toNat / 512 := by
  have aligned : (start &&& ~~~(sectorSize - 1)).toNat = start.toNat / 512 * 512 :=
    Align.toNatAndHighMask start _ (show 9 ≤ 32 by omega) (by decide)
  have rangeEnd : (start + length).toNat = start.toNat + length.toNat := by
    rw [UInt32.toNat_add, Nat.mod_eq_of_lt fits]
  have offset : ((start + length) &&& (sectorSize - 1)).toNat = (start.toNat + length.toNat) % 512 := by
    rw [Align.toNatAndLowMask _ _ (show (sectorSize - 1).toNat = 2 ^ 9 - 1 by decide), rangeEnd]
    rfl
  have covered : (start &&& ~~~(sectorSize - 1)) ≤ start + length := by
    rw [UInt32.le_iff_toNat_le, aligned, rangeEnd]
    omega
  have whole : ((start + length - (start &&& ~~~(sectorSize - 1))) / sectorSize).toNat =
      (start.toNat + length.toNat - start.toNat / 512 * 512) / 512 := by
    rw [UInt32.toNat_div, UInt32.toNat_sub_of_le _ _ covered, aligned, rangeEnd]
    rfl
  have sectorSizeToNat : sectorSize.toNat = 512 := rfl
  refine ⟨by simp only [forByteRange, UInt32.toNat_div, aligned, sectorSizeToNat]; omega, ?_⟩
  simp only [forByteRange]
  split
  · next uneven =>
    have notAligned : (start.toNat + length.toNat) % 512 ≠ 0 := by
      intro zero
      rw [← offset] at zero
      simp [UInt32.toNat_inj.mp (zero.trans UInt32.toNat_zero.symm)] at uneven
    rw [UInt32.toNat_add, whole, UInt32.toNat_one, Nat.mod_eq_of_lt (by omega)]
    omega
  · next even =>
    have isAligned : (start.toNat + length.toNat) % 512 = 0 := by
      rw [← offset, bne_eq_false_iff_eq.mp (Bool.of_not_eq_true even)]
      rfl
    rw [whole]
    omega

end SectorRange

structure ReadCommand where
  count : UInt16
  cylinder : UInt8
  head : UInt8
  sector : UInt8
  deriving DecidableEq, Repr

def loadSectorsToCache (sectors : SectorRange) : ReadCommand :=
  let count := sectors.byteLength - 1
  let (c, h, s) := sectors.getFirstSector.toChs
  ⟨count.toUInt16, c.toUInt8, h.toUInt8, s.toUInt8⟩

theorem toChsSpec (sector : Sector) :
    sector.toChs.1.toNat = sector.lba.toNat / 36 ∧ sector.toChs.2.1.toNat = sector.lba.toNat % 36 / 18 ∧
      sector.toChs.2.2.toNat = sector.lba.toNat % 18 + 1 := by
  have tracks : (2 * sectorsPerTrack).toNat = 36 := rfl
  have sectors : sectorsPerTrack.toNat = 18 := rfl
  refine ⟨?_, ?_, ?_⟩
  · simp only [Sector.toChs, UInt32.toNat_div, tracks]
  · simp only [Sector.toChs, UInt32.toNat_div, UInt32.toNat_mod, tracks, sectors]
  · simp only [Sector.toChs, UInt32.toNat_add, UInt32.toNat_mod, tracks, sectors, UInt32.toNat_one]
    omega

/-! The controller, as the read command drives it: it moves the count register plus
one bytes, and stops early at the end of the track. -/

def endOfTrack : Nat := 18

def ReadCommand.transferred (command : ReadCommand) : Nat :=
  min (command.count.toNat + 1) ((endOfTrack + 1 - command.sector.toNat) * 512)

def chsOffset (c h s : Nat) : Nat := ((c * 2 + h) * 18 + (s - 1)) * 512

def diskSize : Nat := 80 * 2 * 18 * 512

def controllerRead (disk memory : Nat → UInt8) (command : ReadCommand) : Nat → UInt8 := fun k =>
  if k < command.transferred then
    disk (chsOffset command.cylinder.toNat command.head.toNat command.sector.toNat + k)
  else memory k

theorem loadSectorsToCacheSpec (sectors : SectorRange) (onDisk : sectors.first.lba.toNat < 9216) :
    (loadSectorsToCache sectors).count.toNat = (sectors.byteLength - 1).toNat % 65536 ∧
      chsOffset (loadSectorsToCache sectors).cylinder.toNat (loadSectorsToCache sectors).head.toNat
        (loadSectorsToCache sectors).sector.toNat = sectors.first.lba.toNat * 512 ∧
      (loadSectorsToCache sectors).sector.toNat = sectors.first.lba.toNat % 18 + 1 := by
  obtain ⟨c, h, s⟩ := toChsSpec sectors.first
  simp only [loadSectorsToCache, SectorRange.getFirstSector, UInt32.toNat_toUInt16, UInt32.toNat_toUInt8, c, h, s,
    chsOffset, Nat.reducePow, true_and]
  omega

structure FloppyState where
  nextHandle : Nat
  openHandles : Nat → Option UInt32
  disk : Nat → UInt8
  dma : Nat → UInt8

namespace FloppyState

def setCursor (s : FloppyState) (index : Nat) (cursor : Option UInt32) : FloppyState :=
  { s with openHandles := fun handle => if handle = index then cursor else s.openHandles handle }

end FloppyState

def read (index : Nat) (buffer : List UInt8) (s : FloppyState) : FloppyState × Except Unit (UInt32 × List UInt8) :=
  match s.openHandles index with
  | none => (s, .error ())
  | some cursor =>
    let length := buffer.length.toUInt32
    let sectors := SectorRange.forByteRange cursor length
    let command := loadSectorsToCache sectors
    let dma := controllerRead s.disk s.dma command
    let localOffset := sectors.getLocalOffset cursor
    let filled := (List.range buffer.length).map fun i => dma (localOffset.toNat + i)
    (({ s with dma }).setCursor index (some (cursor + length)), .ok (length, filled))

def floppyDriver : DeviceDriver FloppyState where
  «open» := fun s => ({ s.setCursor s.nextHandle (some 0) with nextHandle := s.nextHandle + 1 }, .ok s.nextHandle)
  read := read
  write := fun _ _ s => (s, .ok 0)
  close := fun index s => (s.setCursor index none, .ok ())
  seek := fun index offset s =>
    match s.openHandles index with
    | some cursor => (s.setCursor index (some (offset.fromCurrentPosition cursor)), .ok (offset.fromCurrentPosition cursor))
    | none => (s, .error ())

def coveringSectors (cursor length : Nat) : Nat := (cursor + length + 511) / 512 - cursor / 512

theorem readCommandSpec {cursor length : UInt32} (onDisk : cursor.toNat + length.toNat ≤ diskSize) :
    (loadSectorsToCache (.forByteRange cursor length)).transferred =
        min ((coveringSectors cursor.toNat length.toNat * 512 + (2 ^ 32 - 1)) % 2 ^ 32 % 65536 + 1)
          ((18 - cursor.toNat / 512 % 18) * 512) ∧
      chsOffset (loadSectorsToCache (.forByteRange cursor length)).cylinder.toNat
          (loadSectorsToCache (.forByteRange cursor length)).head.toNat
          (loadSectorsToCache (.forByteRange cursor length)).sector.toNat = cursor.toNat / 512 * 512 ∧
      ((SectorRange.forByteRange cursor length).getLocalOffset cursor).toNat = cursor.toNat % 512 := by
  have small : diskSize < 2 ^ 32 := by decide
  obtain ⟨first, count⟩ := SectorRange.forByteRangeSpec (show cursor.toNat + length.toNat < 2 ^ 32 by omega)
  obtain ⟨register, offset, sector⟩ := loadSectorsToCacheSpec (.forByteRange cursor length)
    (by rw [first]; simp only [diskSize] at onDisk; omega)
  have bytes : (SectorRange.forByteRange cursor length).byteLength.toNat =
      coveringSectors cursor.toNat length.toNat * 512 := by
    rw [SectorRange.byteLength, UInt32.toNat_mul, count, show sectorSize.toNat = 512 from rfl,
      Nat.mod_eq_of_lt (by simp only [diskSize] at onDisk; omega)]
    rfl
  refine ⟨?_, by rw [offset, first], SectorRange.getLocalOffsetSpec _ first⟩
  rw [ReadCommand.transferred, register, sector, UInt32.toNat_sub, bytes, first, UInt32.toNat_one, endOfTrack,
    Nat.add_sub_add_right, Nat.add_comm (2 ^ 32 - 1)]

theorem readOk {s : FloppyState} {index : Nat} {cursor : UInt32} (opened : s.openHandles index = some cursor)
    (buffer : List UInt8) :
    (read index buffer s).2 = .ok (buffer.length.toUInt32, (List.range buffer.length).map fun i =>
      controllerRead s.disk s.dma (loadSectorsToCache (.forByteRange cursor buffer.length.toUInt32))
        (((SectorRange.forByteRange cursor buffer.length.toUInt32).getLocalOffset cursor).toNat + i)) := by
  simp only [read, opened]

theorem coveringWithinTrack {c l : Nat} (nonempty : 0 < l) (oneTrack : c / 512 / 18 = (c + l - 1) / 512 / 18) :
    c / 512 % 18 + coveringSectors c l ≤ 18 := by
  have last : (c + l + 511) / 512 = (c + l - 1) / 512 + 1 := by omega
  have ordered : c / 512 ≤ (c + l - 1) / 512 := Nat.div_le_div_right (by omega)
  rw [coveringSectors, last]
  generalize c / 512 = first at *
  generalize (c + l - 1) / 512 = final at *
  omega

theorem transferredOfCovering {n first : Nat} (nonempty : 0 < n) (fits : n * 512 ≤ 65536) :
    min ((n * 512 + (2 ^ 32 - 1)) % 2 ^ 32 % 65536 + 1) ((18 - first % 18) * 512) =
      min (n * 512) ((18 - first % 18) * 512) := by
  have wrap : (n * 512 + (2 ^ 32 - 1)) % 2 ^ 32 = n * 512 - 1 := by
    rw [show n * 512 + (2 ^ 32 - 1) = n * 512 - 1 + 2 ^ 32 by omega, Nat.add_mod_right,
      Nat.mod_eq_of_lt (by omega)]
  rw [wrap, Nat.mod_eq_of_lt (by omega), Nat.sub_add_cancel (by omega)]

theorem emptyReadWraps {cursor : UInt32} (onDisk : cursor.toNat ≤ diskSize) (aligned : cursor.toNat % 512 = 0) :
    (loadSectorsToCache (.forByteRange cursor 0)).count = 0xffff ∧
      (loadSectorsToCache (.forByteRange cursor 0)).transferred = (18 - cursor.toNat / 512 % 18) * 512 := by
  obtain ⟨first, count⟩ := SectorRange.forByteRangeSpec (show cursor.toNat + (0 : UInt32).toNat < 2 ^ 32 by
    simp only [diskSize] at onDisk; simp; omega)
  have empty : (SectorRange.forByteRange cursor 0).count = 0 := by
    rw [← UInt32.toNat_inj, count]
    simp only [UInt32.toNat_zero, Nat.add_zero]
    omega
  obtain ⟨moved, -, -⟩ := readCommandSpec (show cursor.toNat + (0 : UInt32).toNat ≤ diskSize by simpa using onDisk)
  have none : coveringSectors cursor.toNat (0 : UInt32).toNat = 0 := by
    simp only [coveringSectors, UInt32.toNat_zero, Nat.add_zero]
    omega
  refine ⟨?_, ?_⟩
  · simp only [loadSectorsToCache, SectorRange.byteLength, empty]
    rfl
  · rw [moved, none]
    simp only [Nat.zero_mul, Nat.zero_add, Nat.reducePow]
    omega

theorem readMovesCovering {cursor length : UInt32} (onDisk : cursor.toNat + length.toNat ≤ diskSize)
    (nonempty : 0 < length.toNat)
    (oneTrack : cursor.toNat / 512 / 18 = (cursor.toNat + length.toNat - 1) / 512 / 18)
    (fits : coveringSectors cursor.toNat length.toNat * 512 ≤ 65536) :
    (loadSectorsToCache (.forByteRange cursor length)).transferred = coveringSectors cursor.toNat length.toNat * 512 := by
  obtain ⟨moved, -, -⟩ := readCommandSpec onDisk
  have covering : 0 < coveringSectors cursor.toNat length.toNat := by
    simp only [coveringSectors]
    omega
  have withinTrack : coveringSectors cursor.toNat length.toNat * 512 ≤ (18 - cursor.toNat / 512 % 18) * 512 :=
    Nat.mul_le_mul_right 512 (by have := coveringWithinTrack nonempty oneTrack; omega)
  rw [moved, transferredOfCovering covering fits]
  exact Nat.min_eq_left withinTrack

theorem readWithinTrack {s : FloppyState} {index : Nat} {cursor : UInt32} {buffer : List UInt8}
    (opened : s.openHandles index = some cursor) (nonempty : 0 < buffer.length)
    (onDisk : cursor.toNat + buffer.length ≤ diskSize)
    (oneTrack : cursor.toNat / 512 / 18 = (cursor.toNat + buffer.length - 1) / 512 / 18)
    (inPage : coveringSectors cursor.toNat buffer.length * 512 ≤ dmaSize) :
    (read index buffer s).2 =
        .ok (buffer.length.toUInt32, (List.range buffer.length).map fun i => s.disk (cursor.toNat + i)) ∧
      1 ≤ (loadSectorsToCache (.forByteRange cursor buffer.length.toUInt32)).transferred ∧
      (loadSectorsToCache (.forByteRange cursor buffer.length.toUInt32)).transferred ≤ dmaSize ∧
      ((SectorRange.forByteRange cursor buffer.length.toUInt32).getLocalOffset cursor).toNat + buffer.length ≤
        dmaSize := by
  have length : buffer.length.toUInt32.toNat = buffer.length := by
    simp only [diskSize] at onDisk
    simp only [Nat.toUInt32_eq, UInt32.toNat_ofNat', Nat.reducePow]
    omega
  have within : cursor.toNat + buffer.length.toUInt32.toNat ≤ diskSize := by rw [length]; exact onDisk
  obtain ⟨-, offset, localOffset⟩ := readCommandSpec within
  have moved := readMovesCovering within (by rw [length]; exact nonempty) (by rw [length]; exact oneTrack)
    (by rw [length]; simp only [dmaSize] at inPage; omega)
  rw [length] at moved
  simp only [coveringSectors, dmaSize] at inPage moved
  refine ⟨?_, by omega, by simp only [dmaSize]; omega, by simp only [dmaSize]; omega⟩
  rw [readOk opened]
  refine congrArg (fun bytes => Except.ok (buffer.length.toUInt32, bytes)) (List.map_congr_left fun i mem => ?_)
  rw [List.mem_range] at mem
  rw [controllerRead, if_pos (by rw [moved, localOffset]; omega), offset, localOffset]
  exact congrArg s.disk (by omega)

theorem readPastTrackEnd {s : FloppyState} {index : Nat} {cursor : UInt32} {buffer : List UInt8}
    (opened : s.openHandles index = some cursor) (onDisk : cursor.toNat + buffer.length ≤ diskSize)
    (crosses : 18 - cursor.toNat / 512 % 18 < coveringSectors cursor.toNat buffer.length)
    (fits : coveringSectors cursor.toNat buffer.length * 512 ≤ 65536) :
    ∃ filled, (read index buffer s).2 = .ok (buffer.length.toUInt32, filled) ∧
      ∀ i < buffer.length, (18 - cursor.toNat / 512 % 18) * 512 ≤ cursor.toNat % 512 + i →
        filled[i]? = some (s.dma (cursor.toNat % 512 + i)) := by
  have length : buffer.length.toUInt32.toNat = buffer.length := by
    simp only [diskSize] at onDisk
    simp only [Nat.toUInt32_eq, UInt32.toNat_ofNat', Nat.reducePow]
    omega
  obtain ⟨moved, -, localOffset⟩ :=
    readCommandSpec (show cursor.toNat + buffer.length.toUInt32.toNat ≤ diskSize by rw [length]; exact onDisk)
  have pastTrack : (18 - cursor.toNat / 512 % 18) * 512 ≤ coveringSectors cursor.toNat buffer.length * 512 :=
    Nat.mul_le_mul_right 512 (Nat.le_of_lt crosses)
  rw [length, transferredOfCovering (by omega) fits, Nat.min_eq_right pastTrack] at moved
  refine ⟨_, readOk opened buffer, fun i inside past => ?_⟩
  rw [List.getElem?_map, List.getElem?_range inside, Option.map_some, controllerRead, localOffset,
    if_neg (by rw [moved]; omega)]

theorem floppyReadOverrunsDmaPage :
    (∀ (s : FloppyState) index cursor (buffer : List UInt8), s.openHandles index = some cursor →
      0 < buffer.length → cursor.toNat + buffer.length ≤ diskSize →
      cursor.toNat / 512 / 18 = (cursor.toNat + buffer.length - 1) / 512 / 18 →
      coveringSectors cursor.toNat buffer.length * 512 ≤ dmaSize →
        (read index buffer s).2 =
            .ok (buffer.length.toUInt32, (List.range buffer.length).map fun i => s.disk (cursor.toNat + i)) ∧
          1 ≤ (loadSectorsToCache (.forByteRange cursor buffer.length.toUInt32)).transferred ∧
          (loadSectorsToCache (.forByteRange cursor buffer.length.toUInt32)).transferred ≤ dmaSize ∧
          ((SectorRange.forByteRange cursor buffer.length.toUInt32).getLocalOffset cursor).toNat + buffer.length ≤
            dmaSize) ∧
    (∀ cursor : UInt32, cursor.toNat ≤ diskSize → cursor.toNat % 512 = 0 →
      (loadSectorsToCache (.forByteRange cursor 0)).count = 0xffff ∧
        (loadSectorsToCache (.forByteRange cursor 0)).transferred = (18 - cursor.toNat / 512 % 18) * 512) ∧
    dmaSize < (loadSectorsToCache (.forByteRange 0 0)).transferred ∧
    (∀ cursor length : UInt32, cursor.toNat + length.toNat ≤ diskSize → 0 < length.toNat →
      cursor.toNat / 512 / 18 = (cursor.toNat + length.toNat - 1) / 512 / 18 →
      coveringSectors cursor.toNat length.toNat * 512 ≤ 65536 →
        (loadSectorsToCache (.forByteRange cursor length)).transferred =
          coveringSectors cursor.toNat length.toNat * 512) ∧
    dmaSize < (loadSectorsToCache (.forByteRange 0 4097)).transferred ∧
    (∀ (s : FloppyState) index (buffer : List UInt8), s.openHandles index = some 8704 → buffer.length = 1024 →
      ∃ filled, (read index buffer s).2 = .ok (1024, filled) ∧ filled[512]? = some (s.dma 512)) := by
  refine ⟨fun s index cursor buffer opened nonempty onDisk oneTrack inPage =>
      readWithinTrack opened nonempty onDisk oneTrack inPage,
    fun cursor onDisk aligned => emptyReadWraps onDisk aligned, by decide,
    fun cursor length onDisk nonempty oneTrack fits => readMovesCovering onDisk nonempty oneTrack fits, by decide, ?_⟩
  intro s index buffer opened length
  obtain ⟨filled, readIs, past⟩ :=
    readPastTrackEnd opened (by rw [length]; decide) (by rw [length]; decide) (by rw [length]; decide)
  refine ⟨filled, by rw [readIs, length]; rfl, ?_⟩
  exact past 512 (by omega) (by decide)

end ImmDosNx.Block
