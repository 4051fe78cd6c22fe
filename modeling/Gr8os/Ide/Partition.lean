import Gr8os.Cc.ClusterEvents

/-! The partitions of a disk: the files on them, the cache under a file and the commands that come to the drive. -/
namespace Gr8os.Ide

open Bytes Cc

def sectorSize : Nat := 512

/-- What the driver takes of an entry of the partition table. -/
structure MbrPartition where
  firstSector : BitVec 32
  numberOfSectors : BitVec 32

inductive ControlBlock
  | physical (channel device : Fin 2)
  | partition (partitionStart partitionEnd : BitVec 32) (relatedPhysical : ControlBlock)

/-- The control block that ideAddDevice makes for an entry. -/
def MbrPartition.controlBlock (entry : MbrPartition) (relatedPhysical : ControlBlock) : ControlBlock :=
  .partition entry.firstSector (entry.firstSector + entry.numberOfSectors) relatedPhysical

/-- The ports 2 to 5 and the command. The four bits of the sector in port 6 are always zero. -/
structure Command where
  channel : Fin 2
  device : Fin 2
  write : Bool
  numSects : BitVec 8
  low : BitVec 8
  med : BitVec 8
  high : BitVec 8

def Command.sector (c : Command) : Nat := c.low.toNat + 2 ^ 8 * c.med.toNat + 2 ^ 16 * c.high.toNat

/-- What the drive does with one transfer. -/
inductive Answer
  /-- It does not become ready, and no command is sent. -/
  | busy
  | timedOut
  | deviceFailure
  | error (err : BitVec 8)
  /-- An error after the interrupt. -/
  | lateError
  | done
deriving DecidableEq

def Answer.writeStatus : Answer → BitVec 32
  | busy => Status.deviceNotReady.code
  | timedOut => Status.deviceNotReady.code
  | deviceFailure => Status.internalFault.code
  | error _ => Status.unsuccessful.code
  | lateError => Status.unsuccessful.code
  | done => Status.success.code

def Answer.readStatus : Answer → BitVec 32
  | error err => if err = 0x20 then Status.noMediaInDevice.code else Status.unsuccessful.code
  | answer => answer.writeStatus

/-- The commands that one transfer sends and its status. A result of none is a failed assertion. -/
def idePerform (write : Bool) (status : Answer → BitVec 32) (checked : Bool) (answer : Answer) :
    ControlBlock → BitVec 32 → Option (List Command × BitVec 32)
  | .partition partitionStart _ relatedPhysical, sectorNumber =>
    idePerform write status checked answer relatedPhysical (sectorNumber + partitionStart)
  | .physical channel device, sectorNumber =>
    if answer = .busy then some ([], status answer)
    else if checked && sectorNumber &&& 0xFF000000 != 0 then none
    else
      some ([{
        channel, device, write
        numSects := 1
        low := sectorNumber.setWidth 8
        med := (sectorNumber >>> 8).setWidth 8
        high := (sectorNumber >>> 16).setWidth 8 }], status answer)

def idePerformRead := idePerform false Answer.readStatus

def idePerformWrite := idePerform true Answer.writeStatus

abbrev Disk := Nat → Buffer

section driver

variable (checked : Bool) (drive : Nat → Answer) (block : ControlBlock)

/-- Where the machine stops nothing is returned, and any status stands for it. -/
def statusOf (result : Option (List Command × BitVec 32)) : BitVec 32 :=
  (result.map Prod.snd).getD Status.success.code

/-- The sector that a transfer has reached. -/
def reached : Option (List Command × BitVec 32) → Option Nat
  | some ([command], status) => if status = Status.success.code then some command.sector else none
  | _ => none

/-- The two routines as the cache calls them, by the cluster of the file. What the drive answers is given by the cluster. -/
def callbacks : Callbacks Disk where
  actualRead := some {
    status := fun c => statusOf (idePerformRead checked (drive c) block (BitVec.ofNat 32 c))
    bytes := fun disk c buffer =>
      match reached (idePerformRead checked (drive c) block (BitVec.ofNat 32 c)) with
      | some sector => disk sector
      | none => buffer }
  actualWrite := some {
    status := fun c => statusOf (idePerformWrite checked (drive c) block (BitVec.ofNat 32 c))
    store := fun disk c buffer =>
      match reached (idePerformWrite checked (drive c) block (BitVec.ofNat 32 c)) with
      | some sector => fun n => if n = sector then buffer else disk n
      | none => disk }

/-- What one event of the cache sends, with the sector that the cache asks for. -/
def perform : CacheEvent → Option (List (Nat × Command))
  | .readCluster c _ =>
    (idePerformRead checked (drive c) block (BitVec.ofNat 32 c)).map fun (commands, _) => commands.map (c, ·)
  | .writeCluster _ c _ =>
    (idePerformWrite checked (drive c) block (BitVec.ofNat 32 c)).map fun (commands, _) => commands.map (c, ·)
  | _ => some []

/-- What comes to the drive, up to the end of the events or of the machine. -/
def sent : List CacheEvent → List (Nat × Command)
  | [] => []
  | e :: es =>
    match perform checked drive block e with
    | none => []
    | some commands => commands ++ sent es

end driver

/-- IRP_READ or IRP_WRITE, with the low part of the offset if there is one. -/
structure ReadWrite where
  read : Bool
  offset : Option (BitVec 32)
  bufferLength : BitVec 32

def ReadWrite.place (irp : ReadWrite) (currentOffset : BitVec 32) : BitVec 32 := irp.offset.getD currentOffset

def ReadWrite.misaligned (irp : ReadWrite) (currentOffset : BitVec 32) : Bool :=
  irp.place currentOffset &&& 511 != 0 || irp.bufferLength.toNat % sectorSize != 0

structure Completed where
  result : Option (BitVec 32 × Transfer)
  events : List CacheEvent

/-- Nothing is written: the call of the cache is commented out. -/
def ideReadWrite (checked : Bool) (k : Resources) (cb : Callbacks Disk) (disk : Disk) (file : Cc.File)
    (currentOffset : BitVec 32) (irp : ReadWrite) (buffer : Buffer) : Completed :=
  let offset := irp.place currentOffset
  let size := irp.bufferLength
  if irp.misaligned currentOffset then
    { result := some (Status.datatypeMisalignment.code, ⟨file.cacheMap, buffer, 0⟩), events := [] }
  else if irp.read then
    { result := ccCacheReadFile checked k cb disk file offset buffer size size
      events := ccCacheReadFileEvents checked k cb disk file offset buffer size size }
  else
    { result := if checked then none else some (Status.invalidParameter.code, ⟨file.cacheMap, buffer, size⟩)
      events := [] }

/-- A file that is open on a partition: its cache has a cluster for each sector. -/
structure PartitionFile where
  entry : MbrPartition
  channel : Fin 2
  device : Fin 2
  file : Cc.File
  currentOffset : BitVec 32
  sectors : file.cacheMap.clustersPerPage = 8

inductive FileOp
  | readWrite (irp : ReadWrite)
  | close

namespace PartitionFile

variable (f : PartitionFile)

def controlBlock : ControlBlock := f.entry.controlBlock (.physical f.channel f.device)

def partitionStart : Nat := f.entry.firstSector.toNat

def partitionEnd : Nat := (f.entry.firstSector + f.entry.numberOfSectors).toNat

def events (checked : Bool) (k : Resources) (drive : Nat → Answer) (disk : Disk) (buffer : Buffer) :
    FileOp → List CacheEvent
  | .readWrite irp =>
    (ideReadWrite checked k (callbacks checked drive f.controlBlock) disk f.file f.currentOffset irp buffer).events
  | .close => (ccFreeCacheMap k (callbacks checked drive f.controlBlock) disk f.file).events

/-- Whatever the drive and the memory do: the drive is only sent sectors of the partition, and each of them is the one that
is asked for, counted from the partition's first sector. -/
def Confined (op : FileOp) : Prop :=
  ∀ checked k drive disk buffer, ∀ s ∈ sent checked drive f.controlBlock (f.events checked k drive disk buffer op),
    (f.partitionStart ≤ s.2.sector ∧ s.2.sector < f.partitionEnd) ∧ s.2.sector = f.partitionStart + s.1

/-- The pages of the file that are transferred: those of a read that have no copy, those of a cached file that are dirty when
it is closed. -/
def pages : FileOp → List Nat
  | .readWrite irp =>
    if irp.misaligned f.currentOffset then []
    else if irp.read then
      visits f.file.cacheMap f.file.readThrough (Request.start (irp.place f.currentOffset) irp.bufferLength)
    else []
  | .close =>
    if f.file.isCached then (f.file.cacheMap.pageCacheMap.filter CachedPage.dirty).map CachedPage.pageNumber else []

/-- All eight sectors of each of these pages are in the partition and have numbers of 24 bits. -/
def Within (op : FileOp) : Prop :=
  ∀ p ∈ f.pages op, f.partitionStart + 8 * p + 8 ≤ f.partitionEnd ∧ f.partitionStart + 8 * p + 8 ≤ 2 ^ 24

end PartitionFile

section commands

variable {checked : Bool} {drive : Nat → Answer} {block : ControlBlock}

theorem Command.sector_lt (c : Command) : c.sector < 2 ^ 24 := by
  have low := c.low.isLt
  have med := c.med.isLt
  have high := c.high.isLt
  unfold sector
  omega

/-- The three ports hold 24 bits of the sum. -/
theorem idePerform_sector {write : Bool} {status : Answer → BitVec 32} {answer : Answer} {first last : BitVec 32}
    {channel device : Fin 2} {c : Nat} {commands : List Command} {told : BitVec 32} {command : Command}
    (runs : idePerform write status checked answer (.partition first last (.physical channel device))
      (BitVec.ofNat 32 c) = some (commands, told)) (listed : command ∈ commands) :
    command.sector = (first.toNat + c) % 2 ^ 24 := by
  have sum : (BitVec.ofNat 32 c + first).toNat = (c % 2 ^ 32 + first.toNat) % 2 ^ 32 := by
    rw [BitVec.toNat_add, BitVec.toNat_ofNat]
  rw [idePerform, idePerform] at runs
  generalize BitVec.ofNat 32 c + first = n at runs sum
  split at runs
  · cases runs
    exact absurd listed List.not_mem_nil
  · split at runs
    · cases runs
    · cases runs
      rw [List.mem_singleton.mp listed, Command.sector]
      simp only [BitVec.toNat_setWidth, BitVec.toNat_ushiftRight, Nat.shiftRight_eq_div_pow]
      omega

/-- Without assertions a drive that works is sent a command. -/
theorem idePerform_done (write : Bool) (status : Answer → BitVec 32) (n : BitVec 32) :
    ∃ command, idePerform write status false .done block n = some ([command], status .done) := by
  induction block generalizing n with
  | physical channel device => exact ⟨_, rfl⟩
  | partition first last related ih => exact ih (n + first)

theorem read_done : ∃ read, (callbacks false (fun _ => .done) block).actualRead = some read ∧
    ∀ c, read.status c = Status.success.code := by
  refine ⟨_, rfl, fun c => ?_⟩
  obtain ⟨command, runs⟩ := @idePerform_done block false Answer.readStatus (BitVec.ofNat 32 c)
  dsimp only
  rw [idePerformRead, runs]
  rfl

theorem write_done : ∃ write, (callbacks false (fun _ => .done) block).actualWrite = some write ∧
    ∀ c, write.status c = Status.success.code := by
  refine ⟨_, rfl, fun c => ?_⟩
  obtain ⟨command, runs⟩ := @idePerform_done block true Answer.writeStatus (BitVec.ofNat 32 c)
  dsimp only
  rw [idePerformWrite, runs]
  rfl

theorem mem_sent {s : Nat × Command} {es : List CacheEvent} (listed : s ∈ sent checked drive block es) :
    ∃ e ∈ es, ∃ commands, perform checked drive block e = some commands ∧ s ∈ commands := by
  induction es with
  | nil => exact absurd listed List.not_mem_nil
  | cons e es ih =>
    rw [sent] at listed
    split at listed
    · exact absurd listed List.not_mem_nil
    · next commands runs =>
      rcases List.mem_append.mp listed with here | later
      · exact ⟨e, List.mem_cons_self, commands, runs, here⟩
      · obtain ⟨e', member, rest⟩ := ih later
        exact ⟨e', List.mem_cons_of_mem e member, rest⟩

/-- Where the machine runs on, every event's commands are sent. -/
theorem sent_of_mem {s : Nat × Command} {es : List CacheEvent} {e : CacheEvent} {commands : List (Nat × Command)}
    (runs : ∀ e, ∃ commands, perform checked drive block e = some commands) (listed : e ∈ es)
    (performed : perform checked drive block e = some commands) (here : s ∈ commands) :
    s ∈ sent checked drive block es := by
  induction es with
  | nil => exact absurd listed List.not_mem_nil
  | cons e' es ih =>
    obtain ⟨commands', runs'⟩ := runs e'
    rw [sent, runs']
    rcases List.mem_cons.mp listed with rfl | later
    · cases performed.symm.trans runs'
      exact List.mem_append_left _ here
    · exact List.mem_append_right _ (ih later)

theorem perform_done {e : CacheEvent} {c : Nat} (cluster : e.cluster = some c) :
    ∃ command, perform false (fun _ => .done) block e = some [(c, command)] := by
  cases e with
  | readCluster c' status =>
    obtain rfl : c' = c := Option.some.inj cluster
    obtain ⟨command, runs⟩ := @idePerform_done block false Answer.readStatus (BitVec.ofNat 32 c')
    refine ⟨command, ?_⟩
    rw [perform, idePerformRead, runs]
    rfl
  | writeCluster slot c' status =>
    obtain rfl : c' = c := Option.some.inj cluster
    obtain ⟨command, runs⟩ := @idePerform_done block true Answer.writeStatus (BitVec.ofNat 32 c')
    refine ⟨command, ?_⟩
    rw [perform, idePerformWrite, runs]
    rfl
  | _ => cases cluster

theorem sent_done {c : Nat} {es : List CacheEvent} (listed : c ∈ clustersOf es) :
    ∃ command, (c, command) ∈ sent false (fun _ => .done) block es := by
  obtain ⟨e, member, cluster⟩ := List.mem_filterMap.mp listed
  obtain ⟨command, runs⟩ := @perform_done block _ _ cluster
  refine ⟨command, sent_of_mem (fun e' => ?_) member runs (List.mem_singleton_self _)⟩
  cases called : e'.cluster with
  | some c' =>
    obtain ⟨command', runs'⟩ := @perform_done block _ _ called
    exact ⟨_, runs'⟩
  | none =>
    cases e' with
    | readCluster c' status => cases called
    | writeCluster slot c' status => cases called
    | _ => exact ⟨[], rfl⟩

end commands

namespace PartitionFile

variable {f : PartitionFile} {op : FileOp}

/-- What is sent for an event is sent for its cluster, and to the sector of the sum. -/
theorem perform_sector {checked : Bool} {drive : Nat → Answer} {e : CacheEvent} {commands : List (Nat × Command)}
    {s : Nat × Command} (runs : perform checked drive f.controlBlock e = some commands) (listed : s ∈ commands) :
    e.cluster = some s.1 ∧ s.2.sector = (f.partitionStart + s.1) % 2 ^ 24 := by
  cases e with
  | readCluster c status =>
    obtain ⟨⟨sent, told⟩, answer, rfl⟩ := Option.map_eq_some_iff.mp runs
    obtain ⟨command, member, rfl⟩ := List.mem_map.mp listed
    exact ⟨rfl, idePerform_sector answer member⟩
  | writeCluster slot c status =>
    obtain ⟨⟨sent, told⟩, answer, rfl⟩ := Option.map_eq_some_iff.mp runs
    obtain ⟨command, member, rfl⟩ := List.mem_map.mp listed
    exact ⟨rfl, idePerform_sector answer member⟩
  | _ =>
    cases runs
    exact absurd listed List.not_mem_nil

/-- The driver is called for sectors of the transferred pages only. -/
theorem cluster_page {checked : Bool} {k : Resources} {drive : Nat → Answer} {disk : Disk} {buffer : Buffer}
    {c : Nat} (member : c ∈ clustersOf (f.events checked k drive disk buffer op)) :
    ∃ p ∈ f.pages op, ∃ i < 8, c = p * 8 + i := by
  cases op with
  | readWrite irp =>
    rw [events, ideReadWrite] at member
    rw [pages]
    split at member
    next => exact absurd member List.not_mem_nil
    next aligned =>
      rw [if_neg aligned]
      split at member
      next read =>
        rw [if_pos read, ← f.sectors]
        exact ccCacheReadFileEvents_page member
      next => exact absurd member List.not_mem_nil
  | close =>
    obtain ⟨cached, page, listed, dirty, here⟩ := ccFreeCacheMap_page member
    rw [pages, if_pos cached, ← f.sectors]
    exact ⟨page.pageNumber, List.mem_map.mpr ⟨page, List.mem_filter.mpr ⟨listed, dirty⟩, rfl⟩, here⟩

theorem page_read {p i : Nat} {irp : ReadWrite} (disk : Disk) (buffer : Buffer) (listed : p ∈ f.pages (.readWrite irp))
    (below : i < f.file.cacheMap.clustersPerPage) :
    p * f.file.cacheMap.clustersPerPage + i ∈
      clustersOf (f.events false enough (fun _ => .done) disk buffer (.readWrite irp)) := by
  rw [pages] at listed
  rw [events, ideReadWrite]
  split at listed
  next => exact absurd listed List.not_mem_nil
  next aligned =>
    rw [if_neg aligned]
    split at listed
    next read =>
      obtain ⟨routine, reads, succeeds⟩ := @read_done f.controlBlock
      have goes_on : ∀ c, routine.status c ≠ Status.endOfFile.code ∧ routine.status c ≠ Status.noMediaInDevice.code := by
        intro c
        rw [succeeds]
        exact ⟨by decide, by decide⟩
      rw [if_pos read]
      dsimp only
      rw [(ccCacheReadFileEvents_asks (by rw [Bool.false_and]; exact Bool.false_ne_true)).all enough_allocates]
      exact List.mem_flatMap.mpr ⟨p, listed, pageClusters_all reads goes_on below⟩
    next => exact absurd listed List.not_mem_nil

theorem page_written {p i : Nat} (disk : Disk) (buffer : Buffer) (listed : p ∈ f.pages .close)
    (below : i < f.file.cacheMap.clustersPerPage) :
    p * f.file.cacheMap.clustersPerPage + i ∈
      clustersOf (f.events false enough (fun _ => .done) disk buffer .close) := by
  rw [pages] at listed
  split at listed
  next cached =>
    obtain ⟨page, member, rfl⟩ := List.mem_map.mp listed
    obtain ⟨inMap, dirty⟩ := List.mem_filter.mp member
    obtain ⟨routine, writes, succeeds⟩ := @write_done f.controlBlock
    have fine : ∀ page, succeeded (pageWriteStatus enough (callbacks false (fun _ => .done) f.controlBlock)
        f.file.cacheMap page) = true := by
      intro page
      rw [pageWriteStatus, writes]
      dsimp only
      rw [f.sectors, if_neg (by decide), succeeds]
      decide
    exact ccFreeCacheMap_all fine writes cached inMap dirty below
  next => exact absurd listed List.not_mem_nil

/-- Without assertions and with a drive that works, each sector of these pages is sent. -/
theorem page_sent {p i : Nat} (disk : Disk) (buffer : Buffer) (listed : p ∈ f.pages op) (below : i < 8) :
    ∃ command, (p * 8 + i, command) ∈
      sent false (fun _ => .done) f.controlBlock (f.events false enough (fun _ => .done) disk buffer op) := by
  apply sent_done
  rw [← f.sectors] at below ⊢
  cases op with
  | readWrite irp => exact page_read disk buffer listed below
  | close => exact page_written disk buffer listed below

theorem within_of_confined (confined : f.Confined op) : f.Within op := by
  intro p listed
  obtain ⟨command, last⟩ := page_sent (i := 7) (fun _ _ => 0) (fun _ => 0) listed (by decide)
  obtain ⟨⟨_, inside⟩, place⟩ := confined _ _ _ _ _ _ last
  have small := command.sector_lt
  dsimp only at inside place
  omega

theorem confined_of_within (within : f.Within op) : f.Confined op := by
  intro checked k drive disk buffer s listed
  obtain ⟨e, member, commands, runs, here⟩ := mem_sent listed
  obtain ⟨cluster, sector⟩ := perform_sector runs here
  obtain ⟨p, onPage, i, below, place⟩ := cluster_page (List.mem_filterMap.mpr ⟨e, member, cluster⟩)
  obtain ⟨inside, small⟩ := within p onPage
  rw [sector]
  omega

/-- A request keeps to the partition exactly where all the pages that it transfers do. -/
theorem confined_iff (f : PartitionFile) (op : FileOp) : f.Confined op ↔ f.Within op :=
  ⟨within_of_confined, confined_of_within⟩

end PartitionFile

/-- A file of a partition is opened with a cluster for each sector. -/
theorem opened_sectors {heap : Nat → Bool} {file file₀ : Cc.File}
    (begun : ccInitializeFileCaching heap file sectorSize = some (Status.success.code, file₀)) :
    file₀.cacheMap.clustersPerPage = 8 := by
  obtain ⟨_, _, n, _, rfl⟩ := ccInitializeFileCaching_map begun
  rfl

theorem ideReadWrite_sectors {checked : Bool} {k : Resources} {cb : Callbacks Disk} {disk : Disk} {file : Cc.File}
    {currentOffset : BitVec 32} {irp : ReadWrite} {buffer : Buffer} {res : BitVec 32 × Transfer}
    (done : (ideReadWrite checked k cb disk file currentOffset irp buffer).result = some res) :
    res.2.cacheMap.clustersPerPage = file.cacheMap.clustersPerPage := by
  rw [ideReadWrite] at done
  split at done
  · cases done
    rfl
  · split at done
    · have performed : (CacheCall.read k cb (irp.place currentOffset) buffer irp.bufferLength irp.bufferLength).perform
          checked (file, disk) = some ({ file with cacheMap := res.2.cacheMap }, disk) :=
        Option.map_eq_some_iff.mpr ⟨res, done, rfl⟩
      exact (perform_puts performed).clustersPerPage
    · dsimp only at done
      split at done
      · cases done
      · cases done
        rfl

/-- A hundred sectors, the last four of which begin a page. -/
def shortPartition : PartitionFile where
  entry := { firstSector := 63, numberOfSectors := 100 }
  channel := 0
  device := 0
  file := opened false false
  currentOffset := 0
  sectors := rfl

def readLastPage : ReadWrite where
  read := true
  offset := some 0xC000
  bufferLength := 512

theorem readLastPage_pages : 12 ∈ shortPartition.pages (.readWrite readLastPage) := by
  have aligned : ¬readLastPage.misaligned shortPartition.currentOffset = true := by decide
  have missing : shortPartition.file.cacheMap.copyOf
      (Request.start (readLastPage.place shortPartition.currentOffset) readLastPage.bufferLength).pageNumber = none :=
    freshMap_copyOf 512 32 _
  rw [PartitionFile.pages, if_neg aligned, if_pos (show readLastPage.read = true from rfl),
    show shortPartition.file.readThrough = false from rfl, visits_missing missing, visits_fetch]
  exact List.mem_cons_self

/-- With its sector 96 the four sectors behind the partition are read. -/
theorem shortPartition_overrun : ¬shortPartition.Confined (.readWrite readLastPage) := by
  intro confined
  have inside := (PartitionFile.within_of_confined confined 12 readLastPage_pages).1
  have last : shortPartition.partitionStart + 8 * 12 + 8 = 167 := rfl
  have limit : shortPartition.partitionEnd = 163 := rfl
  rw [last, limit] at inside
  exact absurd inside (by decide)

end Gr8os.Ide
