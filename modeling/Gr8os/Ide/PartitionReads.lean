import Gr8os.Ide.Partition
import Gr8os.Io.SectorReads
import Gr8os.Lib.Bits

/-! Files that are open on a disk or on a partition, read through IoReadFile: the sectors that the caller gets. -/
namespace Gr8os.Ide

open Bytes Cc Gr8os.Io

/-- What the driver knows of a file: the control block of its device, and the cache. -/
structure RawFile where
  block : ControlBlock
  cache : Cc.File

def RawFile.withMap (raw : RawFile) (m : CacheMap) : RawFile := { raw with cache := { raw.cache with cacheMap := m } }

/-- The fields of the packet that the handler looks at. -/
def readWrite (irp : TransferIrp) : ReadWrite where
  read := irp.majorFunction = irpRead
  offset := if irp.offsetSpecified then some irp.offset.lowPart else none
  bufferLength := irp.bufferLength

def ideDriver (checked : Bool) (drive : Nat → Answer) (disk : Disk) (k : Resources) : FileDriver RawFile :=
  fun raw file irp systemBuffer =>
    (ideReadWrite checked k (callbacks checked drive raw.block) disk raw.cache file.currentOffset.lowPart (readWrite irp)
        systemBuffer).result.map fun (status, t) =>
      (⟨t.buffer, ⟨status, t.nBytes⟩, status⟩, raw.withMap t.cacheMap)

/-- The first sector of a disk or a partition. -/
def ControlBlock.firstSector : ControlBlock → Nat
  | .physical _ _ => 0
  | .partition partitionStart _ relatedPhysical => partitionStart.toNat + relatedPhysical.firstSector

/-- The bytes of the disk from a sector on. -/
def bytesFrom (disk : Disk) (first i : Nat) : BitVec 8 := disk (first + i / 512) (i % 512)

section transfers

variable {checked : Bool} {drive : Nat → Answer} {block : ControlBlock} {disk : Disk}

/-- The assertion lets every number of 24 bits pass. -/
theorem high_byte_zero {n : BitVec 32} (small : n.toNat < 2 ^ 24) : n &&& 0xFF000000 = 0 := by
  apply BitVec.eq_of_getLsbD_eq
  intro i inside
  have low : ∀ i < 24, (0xFF000000 : BitVec 32).getLsbD i = false := by decide
  have zero : (0 : BitVec 32).getLsbD i = false := BitVec.getLsbD_zero
  rw [BitVec.getLsbD_and, zero]
  by_cases below : i < 24
  · rw [low i below, Bool.and_false]
  · rw [Bits.getLsbD_of_small small (Nat.le_of_not_lt below), Bool.false_and]

theorem idePerform_reaches (checked write : Bool) (status : Answer → BitVec 32) (answer : Answer) {n : BitVec 32}
    (within : block.firstSector + n.toNat < 2 ^ 24) : ∃ commands,
      idePerform write status checked answer block n = some (commands, status answer) ∧
      (answer = .done → ∃ command, commands = [command] ∧ command.sector = block.firstSector + n.toNat) := by
  induction block generalizing n with
  | physical channel device =>
    have first : (ControlBlock.physical channel device).firstSector = 0 := rfl
    rw [first, Nat.zero_add] at within ⊢
    unfold idePerform
    by_cases busy : answer = .busy
    · rw [if_pos busy]
      refine ⟨[], rfl, fun done => ?_⟩
      rw [done] at busy
      cases busy
    · have small : n &&& 0xFF000000 = 0 := high_byte_zero within
      rw [if_neg busy, small]
      simp only [bne_self_eq_false, Bool.and_false, Bool.false_eq_true, if_false]
      refine ⟨_, rfl, fun _ => ⟨_, rfl, ?_⟩⟩
      unfold Command.sector
      simp only [BitVec.toNat_setWidth, BitVec.toNat_ushiftRight, Nat.shiftRight_eq_div_pow]
      omega
  | partition start stop related ih =>
    have first : (ControlBlock.partition start stop related).firstSector = start.toNat + related.firstSector := rfl
    have sum : (n + start).toNat = n.toNat + start.toNat := by
      rw [BitVec.toNat_add, Nat.mod_eq_of_lt]
      omega
    have place : related.firstSector + (n + start).toNat =
        (ControlBlock.partition start stop related).firstSector + n.toNat := by omega
    rw [← place] at within ⊢
    exact ih within

/-- The routine that reads for the cache: a sector that the drive gives is that of the sum. -/
theorem callbacks_read (checked : Bool) (drive : Nat → Answer) (block : ControlBlock) : ∃ read,
    (callbacks checked drive block).actualRead = some read ∧ ∀ c, block.firstSector + c < 2 ^ 24 →
      read.status c = Answer.readStatus (drive c) ∧
      (drive c = .done → ∀ disk b, read.bytes disk c b = disk (block.firstSector + c)) := by
  refine ⟨_, rfl, fun c within => ?_⟩
  have number : (BitVec.ofNat 32 c).toNat = c := by
    rw [BitVec.toNat_ofNat, Nat.mod_eq_of_lt]
    omega
  rw [← number] at within
  obtain ⟨commands, runs, told⟩ := idePerform_reaches checked false Answer.readStatus (drive c) within
  rw [number] at told
  dsimp only
  unfold idePerformRead
  rw [runs]
  refine ⟨rfl, fun done disk b => ?_⟩
  obtain ⟨command, rfl, sector⟩ := told done
  have success : Answer.readStatus (drive c) = Status.success.code := by
    rw [done]
    rfl
  rw [reached, if_pos success, sector]

theorem readStatus_error (err : BitVec 8) : (Answer.error err).readStatus = Status.noMediaInDevice.code ∨
    (Answer.error err).readStatus = Status.unsuccessful.code := by
  by_cases absent : err = 0x20
  · exact .inl (if_pos absent)
  · exact .inr (if_neg absent)

/-- Of the answers of the drive only one is a success, and none is the end of a file. -/
theorem readStatus_done {answer : Answer} (succeeds : succeeded answer.readStatus = true) : answer = .done := by
  cases answer with
  | done => rfl
  | error err =>
    rcases readStatus_error err with absent | failed
    · rw [absent] at succeeds
      exact absurd succeeds (by decide)
    · rw [failed] at succeeds
      exact absurd succeeds (by decide)
  | _ => exact absurd succeeds (by decide)

theorem readStatus_not_ended (answer : Answer) : answer.readStatus ≠ Status.endOfFile.code := by
  cases answer with
  | error err =>
    rcases readStatus_error err with absent | failed
    · rw [absent]
      decide
    · rw [failed]
      decide
  | _ => decide

/-- As long as their sectors have numbers of 24 bits, the clusters of a file are those of the disk from its first sector
on. -/
theorem callbacks_serves (checked : Bool) (drive : Nat → Answer) {block : ControlBlock} {sectors : Nat}
    (within : block.firstSector + sectors ≤ 2 ^ 24) :
    Serves (readOnly (callbacks checked drive block)) (fun disk => bytesFrom disk block.firstSector) 512
      (sectors * 512) where
  read reads c succeeds disk b j below inside := by
    obtain ⟨read, reads', sector⟩ := callbacks_read checked drive block
    cases reads'.symm.trans reads
    obtain ⟨status, bytes⟩ := sector c (by omega)
    rw [status] at succeeds
    rw [bytes (readStatus_done succeeds), bytesFrom]
    have number : (c * 512 + j) / 512 = c := by omega
    have place : (c * 512 + j) % 512 = j := by omega
    rw [number, place]
  ended reads c told := by
    obtain ⟨read, reads', sector⟩ := callbacks_read checked drive block
    cases reads'.symm.trans reads
    by_contra inside
    exact readStatus_not_ended _ ((sector c (by omega)).1.symm.trans told)
  write writes := by cases writes
  other writes := by cases writes

/-- A sector that the drive gives, and whose number on the disk has 24 bits. -/
def Gives (drive : Nat → Answer) (block : ControlBlock) (c : Nat) : Prop :=
  drive c = .done ∧ block.firstSector + c < 2 ^ 24

theorem callbacks_sectors (checked : Bool) (drive : Nat → Answer) {block : ControlBlock} {sectors : Nat}
    (within : block.firstSector + sectors ≤ 2 ^ 24) :
    ReadsSectors (callbacks checked drive block) (fun disk => bytesFrom disk block.firstSector) sectors
      (Gives drive block) where
  serves := callbacks_serves checked drive within
  given := by
    obtain ⟨read, reads, sector⟩ := callbacks_read checked drive block
    refine ⟨read, reads, fun c ⟨done, small⟩ => ?_⟩
    rw [(sector c small).1, done]
    rfl

end transfers

section reads

open Runs FileCursor

variable {checked : Bool} {drive : Nat → Answer} {disk : Disk} {block : ControlBlock} {sectors : Nat}
  {f : OpenFile RawFile} {c : ReadCall}

/-- A file of so many sectors on a disk or a partition. -/
def RawReady (disk : Disk) (block : ControlBlock) (sectors : Nat) : OpenFile RawFile → Prop :=
  SectorFile (fun raw => raw.block = block) RawFile.cache (bytesFrom disk block.firstSector) sectors

def RawServed (drive : Nat → Answer) (block : ControlBlock) (sectors : Nat) : OpenFile RawFile → ReadCall → Prop :=
  SectorsServed (Gives drive block) RawFile.cache sectors

theorem readWrite_place (c : ReadCall) (f : OpenFile RawFile) :
    (readWrite (c.packet f)).place f.object.currentOffset.lowPart = c.place f := by
  rw [← c.packet_place f]
  unfold ReadWrite.place readWrite
  cases (c.packet f).offsetSpecified with
  | false => rfl
  | true => rfl

theorem readWrite_aligned (place : (c.place f).toNat % 512 = 0) (length : c.request.length.toNat % 512 = 0) :
    (readWrite (c.packet f)).misaligned f.object.currentOffset.lowPart = false := by
  have mask : c.place f &&& 511 = 0 := by
    apply BitVec.eq_of_toNat_eq
    rw [BitVec.toNat_and]
    exact (Nat.and_two_pow_sub_one_eq_mod _ 9).trans place
  have rest : (readWrite (c.packet f)).bufferLength.toNat % sectorSize = 0 := length
  rw [ReadWrite.misaligned, readWrite_place, mask, rest]
  rfl

theorem ideDriver_through (checked : Bool) (drive : Nat → Answer) (disk : Disk) (block : ControlBlock) :
    ReadsThrough checked (ideDriver checked drive disk) (callbacks checked drive block) disk
      (fun raw => raw.block = block) RawFile.cache RawFile.withMap where
  answers := by
    rintro f c input rfl place length
    have aligned := readWrite_aligned place length
    have size : (readWrite (c.packet f)).bufferLength = c.request.length := rfl
    have read : (readWrite (c.packet f)).read = true := rfl
    unfold ideDriver ideReadWrite
    dsimp only
    rw [aligned, if_neg Bool.false_ne_true, read, if_pos rfl, readWrite_place, size]
  map _ _ := rfl
  kind same _ := same

/-- The drive delivers the bytes of the disk from the file's first sector on. -/
theorem ideDriver_plain (checked : Bool) (drive : Nat → Answer) (disk : Disk)
    (within : block.firstSector + sectors ≤ 2 ^ 24) :
    PlainReads (ideDriver checked drive disk) (bytesFrom disk block.firstSector) (RawReady disk block sectors)
      (RawServed drive block sectors) :=
  (ideDriver_through checked drive disk block).plain (callbacks_sectors checked drive within)

end reads

/-! The first sector of a partition, through an empty cache. -/

def numberedDisk : Disk := fun sector j => BitVec.ofNat 8 (sector + j)

def firstPartition : ControlBlock := .partition 63 2943 (.physical ⟨0, by decide⟩ ⟨0, by decide⟩)

theorem one_location : (1 : BitVec 8) ≠ 0 := by decide

def partitionFile : OpenFile RawFile where
  object := { readAccess := true, writeAccess := false, stackSize := ⟨1, one_location⟩ }
  device := ⟨firstPartition, Cc.opened false false⟩
  memory _ := 0

def readSector : ReadCall where
  k := enough
  request := {
    buffer := 0
    length := 512
    fileOffset := none
    flags := {}
    irpAllocated := true
    bufferAllocated := true
    systemMemory := fun _ => 0 }

theorem partitionFile_ready : RawReady numberedDisk firstPartition 2880 partitionFile where
  kind := rfl
  access := rfl
  cached := rfl
  clusterSize := rfl
  clustersPerPage := by decide
  clean _ _ := CacheMap.view_none (freshMap_copyOf 512 32 _)

theorem readSector_served : RawServed (fun _ => .done) firstPartition 2880 partitionFile readSector := by
  have last : (readSector.range partitionFile).last = 0 := by decide
  refine ⟨rfl, rfl, by decide, by decide, by decide, by decide, by decide, ?_, fun _ => rfl, ?_⟩
  · intro p _ before
    rw [last] at before
    exact absurd before (Nat.not_lt_zero p)
  · intro _ i below
    have first : firstPartition.firstSector = 63 := by decide
    rw [last]
    refine ⟨rfl, ?_⟩
    rw [first]
    omega

end Gr8os.Ide
