import Gr8os.Cc.CacheRuns
import Gr8os.Cc.ReadLengths
import Gr8os.FsFat.Fat

/-! Reading a file of a mounted FAT volume: the routine that reads a cluster of it for the cache, and the handler of read
requests. -/
namespace Gr8os.FsFat

open Bytes Follow Gr8os.Cc

/-- What a read of the volume that fails answers, and what it leaves in the buffer. -/
structure RawFailure where
  status : BitVec 32 → BitVec 32
  buffer : BitVec 32 → Buffer → Buffer

/-- The fields of the directory entry behind a file control block. -/
structure Fsfatfcb where
  startCluster : BitVec 16
  startClusterHigh : BitVec 16
  fileSize : BitVec 32
deriving DecidableEq, Repr

def Fsfatfcb.chainHead (fcb : Fsfatfcb) : BitVec 32 :=
  fcb.startCluster.setWidth 32 ||| fcb.startClusterHigh.setWidth 32 <<< 16

/-- The offset on the volume that a cluster is read from. -/
def clusterOffset (vcb : Fsfatvcb) (cluster : BitVec 32) : BitVec 32 :=
  let startSector := vcb.cluster2StartSector + (cluster - 2) * vcb.fatHeader.sectorsPerCluster.setWidth 32
  startSector * vcb.fatHeader.sectorSize.setWidth 32

def fsFatReadCluster (vcb : Fsfatvcb) (failure : RawFailure) (cluster : BitVec 32) (buffer : Buffer) :
    BitVec 32 × Buffer :=
  match vcb.rawFileObject (clusterOffset vcb cluster) vcb.clusterSize with
  | some bytes => (Status.success.code, memcpy buffer 0 bytes 0 vcb.clusterSize.toNat)
  | none => (failure.status (clusterOffset vcb cluster), failure.buffer (clusterOffset vcb cluster) buffer)

/-- The sector number is the position of a cluster in the file. -/
def fsFatPerformRead (checked : Bool) (vcb : Fsfatvcb) (failure : RawFailure) (fcb : Fsfatfcb)
    (sectorNumber : BitVec 32) (buffer : Buffer) (size nBytesRead : BitVec 32) :
    Option (BitVec 32 × Buffer × BitVec 32) :=
  if size = 0 then some (Status.success.code, buffer, nBytesRead)
  else
    (fsFatFileClusterByPos checked vcb fcb.chainHead sectorNumber).bind fun cluster =>
      if cluster = -1 then some (Status.endOfFile.code, buffer, nBytesRead)
      else if cluster = -2 then some (Status.partialCompletion.code, buffer, nBytesRead)
      else if cluster = -3 then some (Status.partialCompletion.code, buffer, nBytesRead)
      else if cluster < 2 then some (Status.invalidParameter.code, buffer, nBytesRead)
      else
        let (status, buffer) := fsFatReadCluster vcb failure cluster buffer
        (fsFatReadFatEntry checked vcb cluster).map fun entry =>
          let nBytesRead :=
            if (fsFatGetClTable vcb.fatType).lastClusterStart ≤ entry then fcb.fileSize % vcb.clusterSize
            else vcb.clusterSize
          if succeeded status then (Status.success.code, buffer, nBytesRead) else (status, buffer, nBytesRead)

/-- What the cache gets to see: the count of bytes is not looked at. A walk that stops the machine answers nothing; the
words for it here are never read where the table is loaded. -/
def fsFatCallbacks (checked : Bool) (vcb : Fsfatvcb) (failure : RawFailure) (fcb : Fsfatfcb) : Callbacks Unit where
  actualRead := some {
    status := fun cluster =>
      ((fsFatPerformRead checked vcb failure fcb (BitVec.ofNat 32 cluster) (fun _ => 0) vcb.clusterSize 0).map
        (·.1)).getD Status.internalFault.code
    bytes := fun _ cluster buffer =>
      ((fsFatPerformRead checked vcb failure fcb (BitVec.ofNat 32 cluster) buffer vcb.clusterSize 0).map
        (·.2.1)).getD buffer }
  actualWrite := none

/-- The fields of a request packet that the handler looks at. -/
structure ReadIrp where
  bufferedIo : Bool := true
  neitherIo : Bool := false
  systemBuffer : Buffer := fun _ => 0
  userBuffer : Buffer := fun _ => 0
  bufferLength : BitVec 32
  offsetSpecified : Bool := true
  offset : BitVec 32

/-- With neither flag the handler's pointer is not set. -/
def ReadIrp.buffer (irp : ReadIrp) : Option Buffer :=
  if irp.bufferedIo then some irp.systemBuffer else if irp.neitherIo then some irp.userBuffer else none

structure FatFile where
  relativeFileNameLength : BitVec 16
  currentOffset : BitVec 32
  fcb : Fsfatfcb
  cache : Cc.File

def readOffset (file : FatFile) (irp : ReadIrp) : BitVec 32 :=
  if irp.offsetSpecified then irp.offset else file.currentOffset

inductive ReadResult
  | completed (status information : BitVec 32) (transferred : Option Transfer)
  | passedDown

/-- The device is that of the file system driver itself or that of a volume. -/
def fsFatRead (checked : Bool) (k : Resources) (vcb : Fsfatvcb) (failure : RawFailure) (fsDeviceObject : Bool)
    (file : FatFile) (irp : ReadIrp) : Option ReadResult :=
  if fsDeviceObject then some (.completed Status.invalidFunction.code 0 none)
  else if file.relativeFileNameLength = 0 then some .passedDown
  else
    irp.buffer.bind fun buffer =>
      (ccCacheReadFile checked k (fsFatCallbacks checked vcb failure file.fcb) () file.cache (readOffset file irp)
        buffer irp.bufferLength 0).map fun (status, t) => .completed status t.nBytes (some t)

/-! The bytes of a file, by its chain, and the bytes that the driver finds for it. -/

/-- Where a cluster begins on the volume, in numbers that have no bound. -/
def clusterAddress (vcb : Fsfatvcb) (cluster : BitVec 32) : Nat :=
  (vcb.cluster2StartSector.toNat + (cluster.toNat - 2) * vcb.fatHeader.sectorsPerCluster.toNat) *
    vcb.fatHeader.sectorSize.toNat

/-- The byte at a place of the file, when its clusters begin where the function says. -/
def chainByte (vcb : Fsfatvcb) (fcb : Fsfatfcb) (disk : Nat → BitVec 8) (start : BitVec 32 → Nat) (i : Nat) : BitVec 8 :=
  disk (start (vcb.clusterAt fcb.chainHead (i / vcb.clusterSize.toNat)) + i % vcb.clusterSize.toNat)

def fileByte (vcb : Fsfatvcb) (fcb : Fsfatfcb) (disk : Nat → BitVec 8) : Nat → BitVec 8 :=
  chainByte vcb fcb disk (clusterAddress vcb)

/-- The byte that the driver reads for a place of the file. -/
def foundByte (vcb : Fsfatvcb) (fcb : Fsfatfcb) (disk : Nat → BitVec 8) : Nat → BitVec 8 :=
  chainByte vcb fcb disk fun cluster => (clusterOffset vcb cluster).toNat

/-- The driver reads a cluster where it begins, but for what does not fit 32 bits. -/
theorem clusterOffset_toNat (vcb : Fsfatvcb) {cluster : BitVec 32} (low : 2 ≤ cluster.toNat) :
    (clusterOffset vcb cluster).toNat = clusterAddress vcb cluster % 4294967296 := by
  have back : (cluster - 2).toNat = cluster.toNat - 2 := by bv_omega
  unfold clusterOffset clusterAddress
  simp only [BitVec.toNat_mul, BitVec.toNat_add, back, BitVec.toNat_setWidth_of_le (by decide : 8 ≤ 32),
    BitVec.toNat_setWidth_of_le (by decide : 16 ≤ 32)]
  simp only [Nat.add_mod_mod, Nat.mod_mul_mod]

/-- On the first 4 GB of a volume the driver finds the bytes of the file. -/
theorem foundByte_eq {vcb : Fsfatvcb} {fcb : Fsfatfcb} {i : Nat} (disk : Nat → BitVec 8)
    (low : 2 ≤ (vcb.clusterAt fcb.chainHead (i / vcb.clusterSize.toNat)).toNat)
    (fits : clusterAddress vcb (vcb.clusterAt fcb.chainHead (i / vcb.clusterSize.toNat)) < 4294967296) :
    foundByte vcb fcb disk i = fileByte vcb fcb disk i := by
  unfold foundByte fileByte chainByte
  dsimp only
  rw [clusterOffset_toNat vcb low, Nat.mod_eq_of_lt fits]

/-- A file of a mounted volume, whose cluster chain is well formed and covers it: the volume's geometry is that which the
mount computed, the chain ends, its clusters can be read, and the file was opened with a cache map. -/
structure Mounted (vcb : Fsfatvcb) (disk : Nat → BitVec 8) (file : FatFile) (n : Nat) : Prop where
  named : file.relativeFileNameLength ≠ 0
  clusterSize : vcb.clusterSize = vcb.fatHeader.sectorsPerCluster.setWidth 32 * vcb.fatHeader.sectorSize.setWidth 32
  clusters : ∀ i < n, 2 ≤ (vcb.clusterAt file.fcb.chainHead i).toNat ∧
    vcb.mark (vcb.clusterAt file.fcb.chainHead i) = none
  ended : 0 < n → vcb.mark (vcb.clusterAt file.fcb.chainHead n) = some .endOfChain
  loaded : vcb.fatType = .fat12 → ∀ i < n, vcb.Loaded (vcb.clusterAt file.fcb.chainHead i)
  covers : file.fcb.fileSize.toNat ≤ n * vcb.clusterSize.toNat
  readable : ∀ i < n, ∃ bytes,
    vcb.rawFileObject (clusterOffset vcb (vcb.clusterAt file.fcb.chainHead i)) vcb.clusterSize = some bytes ∧
      ∀ j, j < vcb.clusterSize.toNat →
        bytes j = disk ((clusterOffset vcb (vcb.clusterAt file.fcb.chainHead i)).toNat + j)
  opened : ∃ heap file₀ file₁,
    ccInitializeFileCaching heap file₀ vcb.clusterSize.toNat = some (Status.success.code, file₁) ∧
      SameClusters file₁.cacheMap file.cache.cacheMap

section chain

variable {checked : Bool} {vcb : Fsfatvcb} {disk : Nat → BitVec 8} {file : FatFile} {n : Nat}

theorem Mounted.unmarked (mounted : Mounted vcb disk file n) {i : Nat} (inside : i < n) :
    vcb.Unmarked file.fcb.chainHead i := by
  intro j below
  exact (mounted.clusters (j + 1) (by omega)).2

theorem Mounted.reached (mounted : Mounted vcb disk file n) {i : Nat} (inside : i < n) (fits : i < 4294967296) :
    fsFatFileClusterByPos checked vcb file.fcb.chainHead (BitVec.ofNat 32 i) =
      some (vcb.clusterAt file.fcb.chainHead i) := by
  have pos : (BitVec.ofNat 32 i).toNat = i := Nat.mod_eq_of_lt fits
  have clear := mounted.unmarked inside
  unfold fsFatFileClusterByPos
  rw [pos]
  rcases Decidable.em (vcb.fatType = .fat16) with type | wide
  · have small := cluster_lt vcb file.fcb.chainHead
    rw [type] at small
    exact fsFatWalk_fat16 checked type small
  · rw [fsFatWalk_follow checked wide (cluster_lt vcb _) fun type j below _ => mounted.loaded type j (by omega),
      follow_clear clear]
    rfl

/-- Past the chain the walk tells of its end, but for 16-bit entries. -/
theorem Mounted.passed (mounted : Mounted vcb disk file n) (wide : vcb.fatType ≠ .fat16) (nonempty : 0 < n)
    {i : Nat} (past : n ≤ i) (fits : i < 4294967296) :
    fsFatFileClusterByPos checked vcb file.fcb.chainHead (BitVec.ofNat 32 i) = some (-1) := by
  have pos : (BitVec.ofNat 32 i).toNat = i := Nat.mod_eq_of_lt fits
  have clear := mounted.unmarked (Nat.sub_one_lt_of_lt nonempty)
  have before : n - 1 + 1 = n := Nat.sub_add_cancel nonempty
  have marked : vcb.fatType.mark (vcb.link^[n - 1 + 1] (cluster vcb file.fcb.chainHead)) = some .endOfChain := by
    rw [before]
    exact mounted.ended nonempty
  have loaded : vcb.fatType = .fat12 → ∀ j < i, Clear vcb.link vcb.fatType.mark (cluster vcb file.fcb.chainHead) j →
      vcb.Loaded (vcb.link^[j] (cluster vcb file.fcb.chainHead)) := by
    intro type j below unmarked
    apply mounted.loaded type
    -- The mark at the end of the chain is not among the links that are clear.
    by_contra beyond
    have none := unmarked (n - 1) (by omega)
    rw [marked] at none
    cases none
  unfold fsFatFileClusterByPos
  rw [pos, fsFatWalk_follow checked wide (cluster_lt vcb _) loaded, follow_marked clear marked (by omega)]
  rfl

theorem Mounted.size_pos (mounted : Mounted vcb disk file n) : 0 < vcb.clusterSize.toNat := by
  obtain ⟨heap, file₀, file₁, begun, _⟩ := mounted.opened
  exact Nat.pos_of_ne_zero (ccInitializeFileCaching_map begun).1

theorem Mounted.performed (checked : Bool) (failure : RawFailure) (mounted : Mounted vcb disk file n) {i : Nat}
    (inside : i < n) (fits : i < 4294967296) (b : Buffer) :
    ∃ buffer nBytes, fsFatPerformRead checked vcb failure file.fcb (BitVec.ofNat 32 i) b vcb.clusterSize 0 =
        some (Status.success.code, buffer, nBytes) ∧
      ∀ j, j < vcb.clusterSize.toNat →
        buffer j = disk ((clusterOffset vcb (vcb.clusterAt file.fcb.chainHead i)).toNat + j) := by
  have size : vcb.clusterSize ≠ 0 := by
    intro zero
    have pos := mounted.size_pos
    rw [zero] at pos
    exact absurd pos (by decide)
  have low := (mounted.clusters i inside).1
  have small := vcb.clusterAt_lt file.fcb.chainHead i
  have entry := fsFatReadFatEntry_link checked small fun type => mounted.loaded type i inside
  have last : vcb.clusterAt file.fcb.chainHead i ≠ -1 := clusterAt_ne_answer vcb _ i .endOfChain
  have bad : vcb.clusterAt file.fcb.chainHead i ≠ -2 := clusterAt_ne_answer vcb _ i .badCluster
  have reserved : vcb.clusterAt file.fcb.chainHead i ≠ -3 := clusterAt_ne_answer vcb _ i .reserved
  have cluster : ¬ vcb.clusterAt file.fcb.chainHead i < 2 := by
    rw [BitVec.lt_def]
    exact Nat.not_lt.mpr low
  obtain ⟨bytes, reads, same⟩ := mounted.readable i inside
  unfold fsFatPerformRead fsFatReadCluster
  rw [if_neg size, mounted.reached inside fits, Option.bind_some, if_neg last, if_neg bad, if_neg reserved,
    if_neg cluster, reads, entry]
  refine ⟨memcpy b 0 bytes 0 vcb.clusterSize.toNat, _, rfl, ?_⟩
  intro j below
  rw [memcpy_inside (Nat.zero_le j) (by omega), Nat.sub_zero, Nat.zero_add]
  exact same j below

theorem Mounted.ended_read (mounted : Mounted vcb disk file n) {failure : RawFailure} (wide : vcb.fatType ≠ .fat16)
    (nonempty : 0 < n) {i : Nat} (past : n ≤ i) (fits : i < 4294967296) (b : Buffer) :
    fsFatPerformRead checked vcb failure file.fcb (BitVec.ofNat 32 i) b vcb.clusterSize 0 =
      some (Status.endOfFile.code, b, 0) := by
  have size : vcb.clusterSize ≠ 0 := by
    intro zero
    have pos := mounted.size_pos
    rw [zero] at pos
    exact absurd pos (by decide)
  unfold fsFatPerformRead
  rw [if_neg size, mounted.passed wide nonempty past fits, Option.bind_some, if_pos rfl]

/-! What the cache sees of it. -/

theorem fsFatCallbacks_reads (checked : Bool) (vcb : Fsfatvcb) (failure : RawFailure) (fcb : Fsfatfcb) :
    ∃ read, (fsFatCallbacks checked vcb failure fcb).actualRead = some read := ⟨_, rfl⟩

theorem Mounted.status (mounted : Mounted vcb disk file n) {failure : RawFailure} {read : CacheRead Unit}
    (reads : (fsFatCallbacks checked vcb failure file.fcb).actualRead = some read) {i : Nat} (inside : i < n)
    (fits : i < 4294967296) : read.status i = Status.success.code := by
  cases reads
  obtain ⟨buffer, nBytes, performed, _⟩ := mounted.performed checked failure inside fits fun _ => 0
  dsimp only
  rw [performed]
  rfl

theorem Mounted.status_past (mounted : Mounted vcb disk file n) {failure : RawFailure} {read : CacheRead Unit}
    (reads : (fsFatCallbacks checked vcb failure file.fcb).actualRead = some read) (wide : vcb.fatType ≠ .fat16)
    (nonempty : 0 < n) {i : Nat} (past : n ≤ i) (fits : i < 4294967296) : read.status i = Status.endOfFile.code := by
  cases reads
  dsimp only
  rw [mounted.ended_read wide nonempty past fits]
  rfl

theorem Mounted.bytes (mounted : Mounted vcb disk file n) {failure : RawFailure} {read : CacheRead Unit}
    (reads : (fsFatCallbacks checked vcb failure file.fcb).actualRead = some read) {i : Nat} (inside : i < n)
    (fits : i < 4294967296) (b : Buffer) (j : Nat) (below : j < vcb.clusterSize.toNat) : read.bytes () i b j =
      foundByte vcb file.fcb disk (i * vcb.clusterSize.toNat + j) := by
  cases reads
  obtain ⟨buffer, nBytes, performed, same⟩ := mounted.performed checked failure inside fits b
  have cluster : (i * vcb.clusterSize.toNat + j) / vcb.clusterSize.toNat = i := by
    rw [Nat.mul_comm, Nat.mul_add_div mounted.size_pos, Nat.div_eq_of_lt below, Nat.add_zero]
  have place : (i * vcb.clusterSize.toNat + j) % vcb.clusterSize.toNat = j := by
    rw [Nat.mul_comm, Nat.mul_add_mod, Nat.mod_eq_of_lt below]
  dsimp only
  rw [performed]
  unfold foundByte chainByte
  rw [cluster, place]
  exact same j below

/-- A place inside the file lies in a cluster of the chain. -/
theorem Mounted.inside (mounted : Mounted vcb disk file n) {i j : Nat}
    (below : i * vcb.clusterSize.toNat + j < file.fcb.fileSize.toNat) : i < n ∧ i < 4294967296 := by
  have covers := mounted.covers
  have pos := mounted.size_pos
  have bound := file.fcb.fileSize.isLt
  constructor
  · by_contra past
    have := Nat.mul_le_mul_right vcb.clusterSize.toNat (Nat.le_of_not_gt past)
    omega
  · have := Nat.le_mul_of_pos_right i pos
    omega

/-- The driver's routine keeps its promise to the cache about the bytes inside the file. -/
theorem Mounted.serves (mounted : Mounted vcb disk file n) (failure : RawFailure) :
    Serves (fsFatCallbacks checked vcb failure file.fcb) (fun _ => foundByte vcb file.fcb disk) vcb.clusterSize.toNat
      file.fcb.fileSize.toNat where
  read reads c _ _ b j below within := mounted.bytes reads (mounted.inside within).1 (mounted.inside within).2 b j below
  ended reads c told := by
    by_contra within
    have inside := mounted.inside (i := c) (j := 0) (by omega)
    rw [mounted.status reads inside.1 inside.2] at told
    exact absurd told (by decide)
  write writes := by cases writes
  other writes := by cases writes

end chain

end Gr8os.FsFat
