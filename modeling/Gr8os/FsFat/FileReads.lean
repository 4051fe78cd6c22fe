import Gr8os.FsFat.ReadExact
import Gr8os.Ide.PartitionReads
import Gr8os.Io.FileTransfers

/-! Files of a mounted volume as the callers of the kernel read them: from IoReadFile down to the clusters and back, and on
to the disk where the volume is on a partition of one. -/
namespace Gr8os.FsFat

open Bytes Runs FileCursor Gr8os.Cc Gr8os.Io

/-- The fields of the packet that the handler looks at. -/
def readIrp (irp : TransferIrp) (systemBuffer : Buffer) : ReadIrp where
  bufferedIo := irp.flags.bufferedIo
  systemBuffer := systemBuffer
  bufferLength := irp.bufferLength
  offsetSpecified := irp.offsetSpecified
  offset := irp.offset.lowPart

def FatFile.withMap (file : FatFile) (m : CacheMap) : FatFile :=
  { file with cache := { file.cache with cacheMap := m } }

/-- The volume's device: the handler completes a request, or hands it to the device that is mounted. -/
def fatDriver (checked : Bool) (vcb : Fsfatvcb) (failure : RawFailure) (realDevice : FileDriver Unit) (k : Resources) :
    FileDriver FatFile := fun fat file irp systemBuffer =>
  let fat := { fat with currentOffset := file.currentOffset.lowPart }
  (fsFatRead checked k vcb failure false fat (readIrp irp systemBuffer)).bind fun
    | .completed status information none => some (⟨systemBuffer, ⟨status, information⟩, status⟩, fat)
    | .completed status information (some t) =>
      some (⟨t.buffer, ⟨status, information⟩, status⟩, fat.withMap t.cacheMap)
    | .passedDown => (realDevice () file irp systemBuffer).map fun (answer, _) => (answer, fat)

section reads

variable {checked : Bool} {vcb : Fsfatvcb} {failure : RawFailure} {realDevice : FileDriver Unit} {disk : Nat → BitVec 8}
  {n : Nat} {fcb : Fsfatfcb} {f : OpenFile FatFile} {c : ReadCall}

/-- A file that may be read and that nothing was written to. Its clusters lie in the first 4 GB of the volume, and each
fills a part of a page that is not too small to be counted. -/
structure Readable (vcb : Fsfatvcb) (disk : Nat → BitVec 8) (n : Nat) (fcb : Fsfatfcb) (f : OpenFile FatFile) : Prop where
  mounted : Mounted vcb disk f.device n
  entry : f.device.fcb = fcb
  access : f.object.readAccess = true
  clusterSize : 16 < vcb.clusterSize.toNat ∧ vcb.clusterSize.toNat < 4096
  low : ∀ i < n, clusterAddress vcb (vcb.clusterAt fcb.chainHead i) < 4294967296
  clean : Clean (foundByte vcb fcb disk) fcb.fileSize.toNat f.device.cache.cacheMap

/-- A call that gets its memory and reads a range inside the file. At most the last page of the range comes from the volume,
and the chain of a volume with 16-bit entries fills it. -/
structure Served (vcb : Fsfatvcb) (n : Nat) (fcb : Fsfatfcb) (f : OpenFile FatFile) (c : ReadCall) : Prop where
  irpAllocated : c.request.irpAllocated = true
  bufferAllocated : c.request.bufferAllocated = true
  starts : (c.place f).toNat < fcb.fileSize.toNat
  inside : (c.place f).toNat + c.request.length.toNat ≤ fcb.fileSize.toNat
  short : c.request.length.toNat < 20 * Cc.pageSize
  copied : ∀ p, (c.range f).pageNumber ≤ p → p < (c.range f).last → ¬FromStore f.device.cache (c.range f) p
  tempPage : FromStore f.device.cache (c.range f) (c.range f).last → (c.k.tempPage (c.range f).last).isSome = true
  chained : FromStore f.device.cache (c.range f) (c.range f).last → vcb.fatType = .fat16 →
    ((c.range f).last + 1) * 4096 ≤ n * vcb.clusterSize.toNat

theorem Mounted.same {file file' : FatFile} (mounted : Mounted vcb disk file n)
    (named : file'.relativeFileNameLength = file.relativeFileNameLength) (fcb : file'.fcb = file.fcb)
    (clusters : SameClusters file.cache.cacheMap file'.cache.cacheMap) : Mounted vcb disk file' n where
  named := named ▸ mounted.named
  clusterSize := mounted.clusterSize
  clusters := fcb ▸ mounted.clusters
  ended := fcb ▸ mounted.ended
  loaded := fcb ▸ mounted.loaded
  covers := fcb ▸ mounted.covers
  readable := fcb ▸ mounted.readable
  opened := by
    obtain ⟨heap, file₀, file₁, begun, same⟩ := mounted.opened
    exact ⟨heap, file₀, file₁, begun, clusters.clusterSize.trans same.clusterSize,
      clusters.clustersPerPage.trans same.clustersPerPage⟩

theorem Readable.fileByte (readable : Readable vcb disk n fcb f) {i : Nat} (inside : i < fcb.fileSize.toNat) :
    foundByte vcb fcb disk i = fileByte vcb fcb disk i := by
  have place : i / vcb.clusterSize.toNat * vcb.clusterSize.toNat + i % vcb.clusterSize.toNat = i := Nat.div_add_mod' ..
  obtain ⟨mounted, rfl, -, -, low, -⟩ := readable
  have cluster := (mounted.inside (place.symm ▸ inside)).1
  exact foundByte_eq disk (mounted.clusters _ cluster).1 (low _ cluster)

theorem Readable.clusters (readable : Readable vcb disk n fcb f) : f.device.cache.cacheMap.clustersPerPage ≠ 0 :=
  readable.mounted.geometry.2.1.mpr readable.clusterSize

/-- The page of a call that comes from the volume is read without a failure. -/
theorem Readable.page_success (readable : Readable vcb disk n fcb f) (served : Served vcb n fcb f c)
    (taken : FromStore f.device.cache (c.range f) (c.range f).last) :
    pageStatus c.k (fsFatCallbacks checked vcb failure fcb) f.device.cache.cacheMap.clustersPerPage
      (c.range f).last = Status.success.code := by
  have clusters := readable.clusters
  obtain ⟨mounted, rfl, -⟩ := readable
  obtain ⟨read, reads⟩ := fsFatCallbacks_reads checked vcb failure f.device.fcb
  have nonempty : 0 < n := by
    have starts := served.starts
    have covers := mounted.covers
    by_contra none
    have zero : n = 0 := by omega
    rw [zero, Nat.zero_mul] at covers
    omega
  have place := Cc.Request.start_position (c.place f) c.request.length
  have bound := (c.place f).isLt
  have bound' := c.request.length.isLt
  have fits := mounted.page_fits (p := (c.range f).last) (r := c.range f) clusters (place ▸ bound) bound' (Nat.le_refl _)
  refine pageStatus_success reads clusters fun i below => ?_
  have within : (c.range f).last * f.device.cache.cacheMap.clustersPerPage + i <
      ((c.range f).last + 1) * f.device.cache.cacheMap.clustersPerPage := by
    rw [Nat.add_mul, Nat.one_mul]
    omega
  by_cases chained : (c.range f).last * f.device.cache.cacheMap.clustersPerPage + i < n
  · exact .inl (mounted.status reads chained (by omega))
  · refine .inr (mounted.status_past reads ?_ nonempty (Nat.le_of_not_gt chained) (by omega))
    intro type
    have filled := served.chained taken type
    have divided := mounted.geometry.2.2 clusters
    unfold CacheMap.Divided at divided
    rw [mounted.geometry.1] at divided
    rw [← divided, ← Nat.mul_assoc] at filled
    have := Nat.le_of_mul_le_mul_right filled mounted.size_pos
    omega

theorem Readable.onePage (checked : Bool) (failure : RawFailure) (readable : Readable vcb disk n fcb f)
    (served : Served vcb n fcb f c) :
    OnePage c.k (fsFatCallbacks checked vcb failure fcb) f.device.cache fcb.fileSize.toNat (c.range f) where
  inside := by
    rw [ReadCall.range, Cc.Request.start_position]
    exact served.inside
  short := served.short
  copied := served.copied
  allocated := served.tempPage
  read taken := readable.page_success served taken
  honest taken := by
    intro _ read reads i _ inside
    obtain ⟨mounted, rfl, -⟩ := readable
    rw [mounted.geometry.1] at inside
    have here := mounted.inside (j := 0) inside
    rw [mounted.status reads here.1 here.2]
    decide

theorem fatDriver_reads (readable : Readable vcb disk n fcb f) (served : Served vcb n fcb f c) (input : Buffer) :
    ∃ res, fatDriver checked vcb failure realDevice c.k f.device f.object (c.packet f) input =
        some (⟨res.2.buffer, ⟨res.1, res.2.nBytes⟩, res.1⟩,
          { f.device with currentOffset := f.object.currentOffset.lowPart }.withMap res.2.cacheMap) ∧
      ReadWhole f.device.cache (foundByte vcb fcb disk) fcb.fileSize.toNat (c.range f) input res := by
  have clusters := readable.clusters
  have page := readable.onePage checked failure served
  obtain ⟨mounted, rfl, -, -, -, clean⟩ := readable
  obtain ⟨res, runs, whole⟩ := @ccCacheReadFile_whole Unit c.k (fsFatCallbacks checked vcb failure f.device.fcb)
    (fun _ => foundByte vcb f.device.fcb disk) () f.device.fcb.fileSize.toNat f.device.cache checked (c.place f)
    c.request.length input (mounted.geometry.1 ▸ mounted.serves failure) (mounted.geometry.2.2 clusters) clean page
  refine ⟨res, ?_, whole⟩
  have buffer : (readIrp (c.packet f) input).buffer = some input := rfl
  have length : (readIrp (c.packet f) input).bufferLength = c.request.length := rfl
  have place : readOffset { f.device with currentOffset := f.object.currentOffset.lowPart } (readIrp (c.packet f) input) =
    c.place f := c.packet_place f
  unfold fatDriver fsFatRead
  dsimp only
  rw [if_neg Bool.false_ne_true, if_neg mounted.named, buffer, place, length, Option.bind_some, runs]
  rfl

/-- The volume delivers the bytes of the file's chain. -/
theorem fatDriver_plain (checked : Bool) (vcb : Fsfatvcb) (failure : RawFailure) (realDevice : FileDriver Unit)
    (disk : Nat → BitVec 8) (n : Nat) (fcb : Fsfatfcb) :
    PlainReads (fatDriver checked vcb failure realDevice) (fileByte vcb fcb disk) (Readable vcb disk n fcb)
      (Served vcb n fcb) where
  call := by
    intro f c readable served
    obtain ⟨res, answered, whole⟩ := @fatDriver_reads checked vcb failure realDevice disk n fcb f c readable served
      c.request.systemMemory
    obtain ⟨t, ends, delivered, device⟩ := readFile_whole readable.access served.irpAllocated served.bufferAllocated
      answered whole served.inside (Nat.lt_of_le_of_lt served.inside fcb.fileSize.isLt) fun _ inside =>
        readable.fileByte inside
    refine ⟨t, ends, delivered, ?_, ?_, ?_, readable.clusterSize, readable.low, ?_⟩
    · show Mounted vcb disk t.device n
      rw [device]
      exact readable.mounted.same rfl rfl whole.clusters
    · show t.device.fcb = fcb
      rw [device]
      exact readable.entry
    · show t.file.readAccess = true
      rw [delivered.object]
      exact readable.access
    · show Clean _ _ t.device.cache.cacheMap
      rw [device]
      exact whole.clean

/-- A piece of the file that lies in a page. -/
structure Piece (vcb : Fsfatvcb) (n fileSize place : Nat) (c : ReadCall) : Prop where
  irpAllocated : c.request.irpAllocated = true
  bufferAllocated : c.request.bufferAllocated = true
  starts : place < fileSize
  inside : place + c.request.length.toNat ≤ fileSize
  within : place % 4096 + c.request.length.toNat ≤ 4096
  tempPage : (c.k.tempPage (place / 4096)).isSome = true
  chained : vcb.fatType = .fat16 → (place / 4096 + 1) * 4096 ≤ n * vcb.clusterSize.toNat

theorem Piece.served (unplaced : c.request.fileOffset = none)
    (piece : Piece vcb n fcb.fileSize.toNat f.cursor.place c) : Served vcb n fcb f c := by
  have place := ReadCall.place_unplaced (f := f) unplaced
  have number : (c.range f).pageNumber = f.cursor.place / 4096 := congrArg (· / 4096) place
  have within := piece.within
  have last : (c.range f).last = f.cursor.place / 4096 := by
    rw [← number]
    apply Cc.Request.last_eq
    show (c.place f).toNat % 4096 + c.request.length.toNat ≤ 4096
    rw [place]
    exact within
  refine ⟨piece.irpAllocated, piece.bufferAllocated, place ▸ piece.starts, place ▸ piece.inside, ?_, ?_, ?_, ?_⟩
  · unfold Cc.pageSize
    omega
  · intro p above before
    omega
  · intro _
    rw [last]
    exact piece.tempPage
  · intro _ type
    rw [last]
    exact piece.chained type

/-- A file that is opened with a map shows nothing but the volume's bytes. -/
theorem opened_clean {heap : Nat → Bool} {file file₀ : Cc.File} {clusterSize size : Nat} {bytes : Nat → BitVec 8}
    (begun : ccInitializeFileCaching heap file clusterSize = some (Status.success.code, file₀)) :
    Clean bytes size file₀.cacheMap := by
  obtain ⟨_, _, slots, _, rfl⟩ := ccInitializeFileCaching_map begun
  intro i _
  exact CacheMap.view_none (freshMap_copyOf clusterSize slots _)

end reads

/-! The file of two clusters on the floppy disk, read in two pieces. -/

def floppyOpen : OpenFile FatFile where
  object := { readAccess := true, writeAccess := false, stackSize := ⟨2, by decide⟩ }
  device := floppyFile
  memory _ := 0

def pieceOf (buffer : Nat) (length : BitVec 32) : ReadCall where
  k := enough
  request := {
    buffer := buffer
    length := length
    fileOffset := none
    flags := {}
    irpAllocated := true
    bufferAllocated := true
    systemMemory := fun _ => 0 }

def noDevice : FileDriver Unit := fun _ _ _ _ => none

theorem floppyOpen_readable : Readable floppyVolume floppyDisk 2 floppyFile.fcb floppyOpen where
  mounted := floppyFile_mounted
  entry := rfl
  access := rfl
  clusterSize := by decide
  low := by decide
  clean := by
    have begun : ccInitializeFileCaching (fun _ => true) floppyFile.cache 512 =
      some (Status.success.code, floppyFile.cache) := rfl
    exact opened_clean begun

theorem floppy_pieces : Pieces (Piece floppyVolume 2 700) 0 64 [pieceOf 64 512, pieceOf 576 188] := by
  have other : ¬floppyVolume.fatType = .fat16 := by decide
  refine ⟨⟨rfl, rfl, rfl, rfl, by decide, by decide, by decide, rfl, fun type => absurd type other⟩, ?_, trivial⟩
  exact ⟨rfl, rfl, rfl, rfl, by decide, by decide, by decide, rfl, fun type => absurd type other⟩

/-- The call that reads a cluster. The high half of the offset is not set, and the system buffer holds anything. -/
def rawCall (k : Resources) (highPart : BitVec 32) (systemMemory : Buffer) (offset size : BitVec 32) : ReadCall where
  k := k
  request := {
    buffer := 0
    length := size
    fileOffset := some ⟨offset, highPart⟩
    flags := {}
    irpAllocated := true
    bufferAllocated := true
    systemMemory := systemMemory }

/-- What the volume gets of its raw file. The buffer is the raw file's memory. -/
def rawBytes {σ : Type} (driver : Resources → FileDriver σ) (k : Resources) (highPart : BitVec 32) (systemMemory : Buffer)
    (raw : OpenFile σ) (offset size : BitVec 32) : Option Buffer :=
  (readFile driver raw (rawCall k highPart systemMemory offset size)).bind fun t =>
    if succeeded t.status then t.completed.map Completed.memory else none

section volume

variable {τ : Type} {driver : Resources → FileDriver τ} {bytes : Nat → BitVec 8} {Ready : OpenFile τ → Prop}
  {gives : Nat → Prop} {cache : τ → Cc.File} {checked : Bool} {sectors n : Nat} {vcb : Fsfatvcb} {k : Resources}
  {highPart : BitVec 32} {systemMemory : Buffer} {opened raw : OpenFile τ} {file : FatFile} {failure : RawFailure}
  {realDevice : FileDriver Unit} {f : OpenFile FatFile}

/-- A stretch of sectors in one page that the device gives. -/
structure Stretch (gives : Nat → Prop) (sectors offset size : Nat) : Prop where
  place : offset % 512 = 0
  length : size % 512 = 0
  within : offset % 4096 + size ≤ 4096
  inside : offset + size ≤ sectors * 512
  fits : offset + size < 4294967296
  given : ∀ i < 8, gives (offset / 4096 * 8 + i)

theorem Stretch.served (highPart : BitVec 32) (systemMemory : Buffer) {offset size : BitVec 32}
    (stretch : Stretch gives sectors offset.toNat size.toNat) (pages : ∀ p, (k.tempPage p).isSome = true) :
    SectorsServed gives cache sectors raw (rawCall k highPart systemMemory offset size) := by
  have last : ((rawCall k highPart systemMemory offset size).range raw).last = offset.toNat / 4096 :=
    Cc.Request.last_eq stretch.within
  have within := stretch.within
  refine ⟨rfl, rfl, stretch.place, stretch.length, stretch.inside, stretch.fits, ?_, ?_, ?_, ?_⟩
  · show size.toNat < _
    unfold Cc.pageSize
    omega
  · intro p above before
    have first : offset.toNat / 4096 ≤ p := above
    omega
  · exact fun _ => pages _
  · intro _
    rw [last]
    exact stretch.given

theorem rawBytes_disk (plain : PlainReads driver bytes Ready (SectorsServed gives cache sectors)) (ready : Ready raw)
    (pages : ∀ p, (k.tempPage p).isSome = true) {offset size : BitVec 32}
    (stretch : Stretch gives sectors offset.toNat size.toNat) :
    ∃ b, rawBytes driver k highPart systemMemory raw offset size = some b ∧
      ∀ j < size.toNat, b j = bytes (offset.toNat + j) := by
  obtain ⟨t, ends, delivered, -⟩ := plain.call ready (stretch.served highPart systemMemory pages)
  refine ⟨_, by rw [rawBytes, ends, Option.bind_some, if_pos delivered.status, delivered.completed]; rfl, ?_⟩
  intro j below
  have inside : j < 0 + size.toNat := by omega
  exact memcpy_inside (Nat.zero_le j) inside

/-- Each read of the volume is answered by its raw file, in a state that other calls have left since it was opened, and with
memory for a page of its cache. -/
def Wired (vcb : Fsfatvcb) (driver : Resources → FileDriver τ) (Served : OpenFile τ → ReadCall → Prop)
    (opened : OpenFile τ) : Prop :=
  ∀ offset size, ∃ cs raw k highPart systemMemory, ReadRun driver Served opened cs raw ∧
    (∀ p, (Resources.tempPage k p).isSome = true) ∧
    vcb.rawFileObject offset size = rawBytes driver k highPart systemMemory raw offset size

/-- A file of the volume, as the directory and the table tell of it. -/
structure Chained (vcb : Fsfatvcb) (file : FatFile) (n : Nat) : Prop where
  named : file.relativeFileNameLength ≠ 0
  clusterSize : vcb.clusterSize = vcb.fatHeader.sectorsPerCluster.setWidth 32 * vcb.fatHeader.sectorSize.setWidth 32
  clusters : ∀ i < n, 2 ≤ (vcb.clusterAt file.fcb.chainHead i).toNat ∧
    vcb.mark (vcb.clusterAt file.fcb.chainHead i) = none
  ended : 0 < n → vcb.mark (vcb.clusterAt file.fcb.chainHead n) = some .endOfChain
  loaded : vcb.fatType = .fat12 → ∀ i < n, vcb.Loaded (vcb.clusterAt file.fcb.chainHead i)
  covers : file.fcb.fileSize.toNat ≤ n * vcb.clusterSize.toNat
  opened : ∃ heap file₀ file₁,
    ccInitializeFileCaching heap file₀ vcb.clusterSize.toNat = some (Status.success.code, file₁) ∧
      SameClusters file₁.cacheMap file.cache.cacheMap

/-- The file's clusters lie in the first 4 GB of the volume, and the device gives them. -/
structure Laid (vcb : Fsfatvcb) (gives : Nat → Prop) (sectors : Nat) (fcb : Fsfatfcb) (n : Nat) : Prop where
  low : ∀ i < n, clusterAddress vcb (vcb.clusterAt fcb.chainHead i) < 4294967296
  given : ∀ i < n, Stretch gives sectors (clusterAddress vcb (vcb.clusterAt fcb.chainHead i)) vcb.clusterSize.toNat

theorem Chained.mounted (plain : PlainReads driver bytes Ready (SectorsServed gives cache sectors))
    (ready : Ready opened) (wired : Wired vcb driver (SectorsServed gives cache sectors) opened)
    (chained : Chained vcb file n) (laid : Laid vcb gives sectors file.fcb n) : Mounted vcb bytes file n where
  named := chained.named
  clusterSize := chained.clusterSize
  clusters := chained.clusters
  ended := chained.ended
  loaded := chained.loaded
  covers := chained.covers
  readable i below := by
    have address := clusterOffset_toNat vcb (chained.clusters i below).1
    rw [Nat.mod_eq_of_lt (laid.low i below)] at address
    have stretch := laid.given i below
    rw [← address] at stretch
    obtain ⟨cs, raw, k, highPart, systemMemory, run, pages, answers⟩ :=
      wired (clusterOffset vcb (vcb.clusterAt file.fcb.chainHead i)) vcb.clusterSize
    rw [answers]
    exact rawBytes_disk plain (plain.run ready run).1 pages stretch
  opened := chained.opened

/-- What it takes to read a file of a volume: it may be read, it is laid out on the raw file, and nothing was written to it. -/
structure OnDevice (vcb : Fsfatvcb) (bytes : Nat → BitVec 8) (gives : Nat → Prop) (sectors n : Nat) (f : OpenFile FatFile) :
    Prop where
  chained : Chained vcb f.device n
  laid : Laid vcb gives sectors f.device.fcb n
  access : f.object.readAccess = true
  clusterSize : 16 < vcb.clusterSize.toNat ∧ vcb.clusterSize.toNat < 4096
  clean : Clean (foundByte vcb f.device.fcb bytes) f.device.fcb.fileSize.toNat f.device.cache.cacheMap

/-- The volume reads its clusters through the raw file, which has a cache of its own. -/
theorem device_file_read {base : Nat} {cs : List ReadCall}
    (plain : PlainReads driver bytes Ready (SectorsServed gives cache sectors)) (ready : Ready opened)
    (wired : Wired vcb driver (SectorsServed gives cache sectors) opened) (file : OnDevice vcb bytes gives sectors n f)
    (pieces : Pieces (Piece vcb n f.device.fcb.fileSize.toNat) f.cursor.place base cs) :
    ∃ g, exec (readStep (fatDriver checked vcb failure realDevice)) f cs = some g ∧
      g.memory = memcpy f.memory base (fileByte vcb f.device.fcb bytes) f.cursor.place (total (cs.map ReadCall.read)) := by
  have readable : Readable vcb bytes n f.device.fcb f :=
    ⟨file.chained.mounted plain ready wired file.laid, rfl, file.access, file.clusterSize, file.laid.low, file.clean⟩
  obtain ⟨g, runs, -, cursor⟩ := (fatDriver_plain checked vcb failure realDevice bytes n f.device.fcb).pieces
    (fun _ unplaced piece => Piece.served unplaced piece) readable pieces
  exact ⟨g, runs, congrArg Cursor.memory cursor⟩

end volume

open Gr8os.Ide

section partition

variable {checked : Bool} {drive : Nat → Ide.Answer} {disk : Disk} {block : ControlBlock} {sectors n : Nat} {vcb : Fsfatvcb}
  {opened : OpenFile RawFile} {failure : RawFailure} {realDevice : FileDriver Unit} {f : OpenFile FatFile}

end partition

/-! The file of two clusters, on a device. -/

def volumeOn {τ : Type} (driver : Resources → FileDriver τ) (opened : OpenFile τ) : Fsfatvcb :=
  { floppy with
    cluster2StartSector := 33
    rawFileObject := rawBytes driver enough 0 (fun _ => 0) opened }

theorem volumeOn_wired {τ : Type} (driver : Resources → FileDriver τ) (Served : OpenFile τ → ReadCall → Prop)
    (opened : OpenFile τ) : Wired (volumeOn driver opened) driver Served opened :=
  fun _ _ => ⟨[], opened, enough, 0, fun _ => 0, .done _, fun _ => rfl, rfl⟩

theorem shifted_chained : Chained { floppy with cluster2StartSector := 33 } floppyFile 2 where
  named := by decide
  clusterSize := by decide
  clusters := by decide
  ended _ := by decide
  loaded _ := by decide
  covers := by decide
  opened := ⟨fun _ => true, floppyFile.cache, floppyFile.cache, rfl, .refl _⟩

theorem shifted_addresses : ∀ i < 2, clusterAddress { floppy with cluster2StartSector := 33 }
    (Fsfatvcb.clusterAt { floppy with cluster2StartSector := 33 } floppyFile.fcb.chainHead i) = 16896 + i * 512 := by
  decide

/-- A device that gives the first sectors has the file. -/
theorem volumeOn_file {τ : Type} (driver : Resources → FileDriver τ) (opened : OpenFile τ) (bytes : Nat → BitVec 8)
    {gives : Nat → Prop} (given : ∀ c < 2880, gives c) :
    OnDevice (volumeOn driver opened) bytes gives 2880 2 floppyOpen := by
  have addresses : ∀ i < 2, clusterAddress (volumeOn driver opened)
      ((volumeOn driver opened).clusterAt floppyFile.fcb.chainHead i) = 16896 + i * 512 := shifted_addresses
  have size : (volumeOn driver opened).clusterSize.toNat = 512 := rfl
  have begun : ccInitializeFileCaching (fun _ => true) floppyFile.cache 512 =
    some (Status.success.code, floppyFile.cache) := rfl
  refine ⟨?_, ⟨fun i below => ?_, fun i below => ?_⟩, rfl, ?_, opened_clean begun⟩
  · exact ⟨shifted_chained.named, shifted_chained.clusterSize, shifted_chained.clusters, shifted_chained.ended,
      shifted_chained.loaded, shifted_chained.covers, shifted_chained.opened⟩
  · show clusterAddress _ ((volumeOn driver opened).clusterAt floppyFile.fcb.chainHead i) < _
    rw [addresses i below]
    omega
  · show Stretch _ _ (clusterAddress _ ((volumeOn driver opened).clusterAt floppyFile.fcb.chainHead i)) _
    rw [addresses i below, size]
    exact ⟨by omega, by omega, by omega, by omega, by omega, fun j small => given _ (by omega)⟩
  · rw [size]
    omega

theorem volumeOn_pieces {τ : Type} (driver : Resources → FileDriver τ) (opened : OpenFile τ) :
    Pieces (Piece (volumeOn driver opened) 2 700) 0 64 [pieceOf 64 512, pieceOf 576 188] := by
  have other : (volumeOn driver opened).fatType ≠ .fat16 := by
    show floppy.fatType ≠ .fat16
    decide
  refine ⟨⟨rfl, rfl, rfl, rfl, by decide, by decide, by decide, rfl, fun type => absurd type other⟩, ?_, trivial⟩
  exact ⟨rfl, rfl, rfl, rfl, by decide, by decide, by decide, rfl, fun type => absurd type other⟩

/-- The file on the first partition of a disk. -/
def partitionVolume : Fsfatvcb := volumeOn (ideDriver true (fun _ => .done) numberedDisk) partitionFile

end Gr8os.FsFat
