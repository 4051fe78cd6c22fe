import Gr8os.Floppy.PerformRead
import Gr8os.FsFat.FileReads

/-! Files on a diskette as the callers of the kernel read them: from IoReadFile down to the commands for the controller. -/
namespace Gr8os.Floppy

open Bytes Cc Gr8os.Io Hal

section geometry

variable {type : MediaType} {n : Nat}

/-- The sectors are those of all tracks under all heads, whose numbers are bytes. -/
structure MediaType.Sound (type : MediaType) : Prop where
  perTrack : 0 < type.sectorsPerTrack.toNat
  heads : 0 < type.numberOfHeads.toNat
  headBytes : type.numberOfHeads.toNat ≤ 256
  trackBytes : type.numberOfTracks.toNat ≤ 256
  total : type.numberOfSectors.toNat =
    type.sectorsPerTrack.toNat * (type.numberOfHeads.toNat * type.numberOfTracks.toNat)

theorem fdpFloppyTypes_sound : ∀ type ∈ fdpFloppyTypes, type.Sound := by
  have each : ∀ type ∈ fdpFloppyTypes, 0 < type.sectorsPerTrack.toNat ∧ 0 < type.numberOfHeads.toNat ∧
      type.numberOfHeads.toNat ≤ 256 ∧ type.numberOfTracks.toNat ≤ 256 ∧ type.numberOfSectors.toNat =
        type.sectorsPerTrack.toNat * (type.numberOfHeads.toNat * type.numberOfTracks.toNat) := by decide
  intro type member
  obtain ⟨perTrack, heads, headBytes, trackBytes, total⟩ := each type member
  exact ⟨perTrack, heads, headBytes, trackBytes, total⟩

/-- What the bytes of a command tell of a sector of the diskette. -/
structure Addressed (type : MediaType) (n : Nat) (chs : Chs) : Prop where
  cylinder : (chs.cylinder.setWidth 8).toNat = n / type.sectorsPerTrack.toNat / type.numberOfHeads.toNat
  head : (chs.head.setWidth 8).toNat = n / type.sectorsPerTrack.toNat % type.numberOfHeads.toNat
  sector : (chs.sector.setWidth 8).toNat = n % type.sectorsPerTrack.toNat + 1
  onTrack : ¬type.sectorsPerTrack.setWidth 32 < chs.sector

theorem lbaToChs_addressed (sound : type.Sound) (inside : n < type.numberOfSectors.toNat) :
    Addressed type n (lbaToChs type (BitVec.ofNat 32 n)) := by
  obtain ⟨perTrack, heads, headBytes, trackBytes, total⟩ := sound
  have number : (BitVec.ofNat 32 n).toNat = n := by
    rw [BitVec.toNat_ofNat, Nat.mod_eq_of_lt]
    exact Nat.lt_trans inside type.numberOfSectors.isLt
  have byte := type.sectorsPerTrack.isLt
  have wide : (type.sectorsPerTrack.setWidth 32).toNat = type.sectorsPerTrack.toNat := by
    rw [BitVec.toNat_setWidth, Nat.mod_eq_of_lt]
    omega
  have track : n / type.sectorsPerTrack.toNat < type.numberOfHeads.toNat * type.numberOfTracks.toNat :=
    Nat.div_lt_of_lt_mul (total ▸ inside)
  have cylinder : n / type.sectorsPerTrack.toNat / type.numberOfHeads.toNat < type.numberOfTracks.toNat :=
    Nat.div_lt_of_lt_mul track
  have head : n / type.sectorsPerTrack.toNat % type.numberOfHeads.toNat < type.numberOfHeads.toNat := Nat.mod_lt _ heads
  have rest : n % type.sectorsPerTrack.toNat < type.sectorsPerTrack.toNat := Nat.mod_lt _ perTrack
  have sector : (lbaToChs type (BitVec.ofNat 32 n)).sector.toNat = n % type.sectorsPerTrack.toNat + 1 := by
    unfold lbaToChs
    rw [BitVec.toNat_add, BitVec.toNat_umod, number, wide]
    exact Nat.mod_eq_of_lt (Nat.lt_of_le_of_lt rest (Nat.lt_trans byte (by decide)))
  refine ⟨?_, ?_, ?_, ?_⟩
  · unfold lbaToChs
    rw [BitVec.toNat_setWidth, BitVec.toNat_udiv, BitVec.toNat_udiv, number, wide, Nat.mod_eq_of_lt]
    omega
  · unfold lbaToChs
    rw [BitVec.toNat_setWidth, BitVec.toNat_umod, BitVec.toNat_udiv, number, wide, Nat.mod_eq_of_lt]
    omega
  · rw [BitVec.toNat_setWidth, sector, Nat.mod_eq_of_lt]
    omega
  · rw [BitVec.lt_def, sector, wide]
    omega

end geometry

/-- What the diskette holds in each sector of a cylinder under a head. -/
abbrev Medium := Nat → Nat → Nat → Buffer

/-- The bytes of the diskette, track after track, and on a cylinder head after head. The first sector of a track has the
number one. -/
def diskByte (type : MediaType) (medium : Medium) (i : Nat) : BitVec 8 :=
  medium (i / 512 / type.sectorsPerTrack.toNat / type.numberOfHeads.toNat)
    (i / 512 / type.sectorsPerTrack.toNat % type.numberOfHeads.toNat) (i / 512 % type.sectorsPerTrack.toNat + 1) (i % 512)

/-- A controller that knows the command to read, and that has put the sector in the pages where it ends without an error. -/
structure Truthful (medium : Medium) (controller : Controller) : Prop where
  known : ∀ {arguments writes reply}, controller (fdOperationRead :: arguments) writes = some reply →
    reply.interruptCode ≠ fdInvalidCmd
  reads : ∀ {drive cylinder head sector endOfTrack gap length writes reply},
    controller [fdOperationRead, drive, cylinder, head, sector, 2, endOfTrack, gap, length] writes = some reply →
    reply.interruptCode = fdNormalExit → ∀ j < 512, reply.page j = medium cylinder.toNat head.toNat sector.toNat j

/-- The state in which a sector is read, and the place of its buffer. -/
structure Session (H : Type) where
  state : DmaState H
  controller : Controller
  fuel : Nat
  buffer : BitVec 32

section callbacks

variable {H : Type} (K : Ex.KernelHeap H) (ws : Nat → Bool) (checked : Bool) (type : MediaType)

/-- A read of a sector to a buffer with some content. -/
def clusterRead (x : Session H) (c : Nat) (b : Buffer) : Option (ReadResult H) :=
  fdPerformRead K ws checked type { x.state with memory := memcpy x.state.memory x.buffer.toNat b 0 512 } x.controller
    (BitVec.ofNat 32 c) x.buffer 512 x.fuel

/-- The routines that FdCreateClose hands to the cache. A read that does not return stands for a failure. -/
def callbacks (drive : Nat → Session H) : Callbacks Unit where
  actualRead := some {
    status := fun c =>
      ((clusterRead K ws checked type (drive c) c fun _ => 0).map fun r => r.status.code).getD Status.unsuccessful.code
    bytes := fun _ c b j =>
      match clusterRead K ws checked type (drive c) c b with
      | some r => if j < 512 then r.state.memory ((drive c).buffer.toNat + j) else b j
      | none => b j }
  actualWrite := none

/-- The sector is read with success. -/
def Gives (drive : Nat → Session H) (c : Nat) : Prop :=
  ∃ r, clusterRead K ws checked type (drive c) c (fun _ => 0) = some r ∧ r.status = .success

end callbacks

/-- The offset is that of the packet, or where the file stands. -/
def fdRead (checked : Bool) (k : Resources) (cb : Callbacks Unit) (file : Cc.File) (currentOffset : BitVec 32)
    (irp : TransferIrp) (systemBuffer : Buffer) : Option (BitVec 32 × Transfer) :=
  let size := irp.bufferLength
  let offset := if irp.offsetSpecified then irp.offset.lowPart else currentOffset
  if offset.toNat % 512 ≠ 0 ∨ size.toNat % 512 ≠ 0 then
    some (Status.datatypeMisalignment.code, ⟨file.cacheMap, systemBuffer, 0⟩)
  else ccCacheReadFile checked k cb () file offset systemBuffer size size

def withMap (file : Cc.File) (m : CacheMap) : Cc.File := { file with cacheMap := m }

def fdDriver (checked : Bool) (cb : Callbacks Unit) (k : Resources) : FileDriver Cc.File :=
  fun cache file irp systemBuffer =>
    (fdRead checked k cb cache file.currentOffset.lowPart irp systemBuffer).map fun (status, t) =>
      (⟨t.buffer, ⟨status, t.nBytes⟩, status⟩, withMap cache t.cacheMap)

theorem fdDriver_through (checked : Bool) (cb : Callbacks Unit) :
    ReadsThrough checked (fdDriver checked cb) cb () (fun _ => True) id withMap where
  answers := by
    intro f c input _ place length
    have aligned : ¬((c.place f).toNat % 512 ≠ 0 ∨ c.request.length.toNat % 512 ≠ 0) := by
      rintro (other | other)
      · exact other place
      · exact other length
    have size : (c.packet f).bufferLength = c.request.length := rfl
    unfold fdDriver fdRead
    dsimp only
    rw [c.packet_place f, size, if_neg aligned]
    rfl
  map _ _ := rfl
  kind _ _ := trivial

section sectors

variable {H : Type} {K : Ex.KernelHeap H} {ws : Nat → Bool} {checked : Bool} {type : MediaType} {medium : Medium}
  {s : DmaState H} {controller : Controller} {buffer : BitVec 32} {fuel n : Nat} {r : ReadResult H} {reply : Reply}
  {drive : Nat → Session H}

theorem normalExit (success : reply.status = .success) (known : reply.interruptCode ≠ fdInvalidCmd) :
    reply.interruptCode = fdNormalExit := by
  have cases : ∀ code : BitVec 2, code ≠ fdNotReady → code ≠ fdAbort → code ≠ fdInvalidCmd →
      code = fdNormalExit := by decide
  unfold Reply.status at success
  split at success
  · cases success
  · next ready =>
    split at success
    · split at success
      · cases success
      · cases success
    · next ends => exact cases _ ready ends known

/-- A sector that is read with success is in the buffer. -/
theorem fdPerformRead_bytes (sound : type.Sound) (truthful : Truthful medium controller)
    (inside : n < type.numberOfSectors.toNat)
    (run : fdPerformRead K ws checked type s controller (BitVec.ofNat 32 n) buffer 512 fuel = some r)
    (success : r.status = .success) :
    ∀ j < 512, r.state.memory (buffer.toNat + j) = diskByte type medium (n * 512 + j) := by
  intro j below
  obtain rfl | ⟨m, made, ⟨failed, rfl⟩ | ⟨-, dmaReq, here, read⟩⟩ := fdPerformRead_inv run
  · cases success
  · dsimp only at success
    rw [success] at failed
    cases failed
  obtain ⟨request, reply, done⟩ := readSector_exchange made here read
  have one : pageCountOf 512 = 1 := by decide
  have fits : (512 : BitVec 32).toNat ≤ (pageCountOf 512).toNat * 4096 := by
    rw [one]
    decide
  have address := lbaToChs_addressed sound inside
  have ended := normalExit (done.status.symm.trans success) (truthful.known done.answered)
  have sector := truthful.reads done.answered ended j below
  rw [address.cylinder, address.head, address.sector] at sector
  have number : (n * 512 + j) / 512 = n := by omega
  have offset : (n * 512 + j) % 512 = j := by omega
  rw [done.bytes fits below, sector, diskByte, number, offset]

/-- What a read of a sector may come to. -/
def readStatuses : List Status :=
  [.invalidParameter, .busy, .insufficientResources, .deviceNotReady, .unsuccessful, .success]

theorem readStatuses_success : ∀ status ∈ readStatuses, succeeded status.code = true → status = .success := by decide

theorem readStatuses_not_ended : ∀ status ∈ readStatuses, status.code ≠ Status.endOfFile.code := by decide

theorem fdPerformRead_status {clusterNumber size : BitVec 32}
    (run : fdPerformRead K ws checked type s controller clusterNumber buffer size fuel = some r) :
    r.status ∈ readStatuses := by
  obtain rfl | ⟨m, made, ⟨failed, rfl⟩ | ⟨-, dmaReq, -, read⟩⟩ := fdPerformRead_inv run
  · exact List.mem_cons_self
  · by_cases busy : s.controllerBusy = 1
    · unfold halInitializeDmaRequest at made
      rw [if_pos busy] at made
      cases made
      exact List.mem_cons_of_mem _ List.mem_cons_self
    · obtain ⟨-, ⟨lacks, -⟩ | ⟨_, _, _, _, done⟩⟩ := halInitializeDmaRequest_inv busy made
      · dsimp only
        rw [lacks]
        decide
      · rw [done.status] at failed
        cases failed
  · obtain ⟨-, reply, -, -, -, status⟩ := readSector_inv read
    rw [status]
    rcases reply.status_cases with other | other | other | other <;> rw [other] <;> decide

/-- What a read comes to does not depend on what the memory holds. -/
theorem fdPerformRead_memory {clusterNumber size : BitVec 32} (memory : Buffer)
    (run : fdPerformRead K ws checked type s controller clusterNumber buffer size fuel = some r) :
    ∃ r', fdPerformRead K ws checked type { s with memory } controller clusterNumber buffer size fuel = some r' ∧
      r'.status = r.status := by
  unfold fdPerformRead at run ⊢
  by_cases beyond : type.numberOfSectors < clusterNumber
  · rw [if_pos beyond] at run ⊢
    cases run
    exact ⟨_, rfl, rfl⟩
  rw [if_neg beyond] at run ⊢
  dsimp only at run ⊢
  by_cases offTrack : type.sectorsPerTrack.setWidth 32 < (lbaToChs type clusterNumber).sector
  · rw [if_pos offTrack] at run ⊢
    cases run
    exact ⟨_, rfl, rfl⟩
  rw [if_neg offTrack] at run ⊢
  obtain ⟨m, made, rest⟩ := Option.bind_eq_some_iff.mp run
  rw [halInitializeDmaRequest_memory memory rfl made, Option.bind_some]
  dsimp only
  cases success : m.status.isSuccess with
  | false =>
    rw [success] at rest
    cases rest
    exact ⟨_, rfl, rfl⟩
  | true =>
    rw [success] at rest
    obtain ⟨dmaReq, here, read⟩ := Option.bind_eq_some_iff.mp rest
    obtain ⟨request, reply, done⟩ := readSector_exchange made here read
    obtain ⟨-, t, ends, -⟩ := @halCompleteDmaRequest_read H K checked
      (transferred { m.state with memory } request reply.page) r.state _ dmaReq request done.found done.read done.complete
    refine ⟨⟨reply.status, if reply.status.isSuccess then some size else none, t⟩, ?_, done.status.symm⟩
    rw [here]
    exact readSector_some done.found done.answered ends

/-- A sector of the diskette is read when its request is granted and completed, and the controller answers. -/
theorem clusterRead_succeeds {x : Session H} {m : DmaResult H} {dmaReq : Nat} {t : DmaState H} (sound : type.Sound)
    (inside : n < type.numberOfSectors.toNat)
    (made : halInitializeDmaRequest K ws x.state (dmaCall x.buffer 512) x.fuel = some m)
    (success : m.status.isSuccess = true) (here : m.dmaRequest = some dmaReq)
    (complete : halCompleteDmaRequest K checked m.state dmaReq = some t)
    (answered : x.controller (readCommand type (lbaToChs type (BitVec.ofNat 32 n))) m.writes = some reply)
    (ended : reply.status = .success) (b : Buffer) :
    ∃ r, clusterRead K ws checked type x n b = some r ∧ r.status = .success := by
  have number : (BitVec.ofNat 32 n).toNat = n := by
    rw [BitVec.toNat_ofNat, Nat.mod_eq_of_lt]
    exact Nat.lt_trans inside type.numberOfSectors.isLt
  have before : ¬type.numberOfSectors < BitVec.ofNat 32 n := by
    rw [BitVec.lt_def, number]
    omega
  obtain ⟨request, found, reads, -⟩ := (halInitializeDmaRequest_read rfl made here).request
  let memory := memcpy x.state.memory x.buffer.toNat b 0 512
  obtain ⟨-, u, ends, -⟩ := @halCompleteDmaRequest_read H K checked
    (transferred { m.state with memory } request reply.page) t m.state.memory dmaReq request found reads complete
  refine ⟨⟨reply.status, if reply.status.isSuccess then some 512 else none, u⟩, ?_, ended⟩
  unfold clusterRead fdPerformRead
  dsimp only
  rw [if_neg before, if_neg (lbaToChs_addressed sound inside).onTrack, halInitializeDmaRequest_memory memory rfl made,
    Option.bind_some, success, here]
  exact readSector_some found answered ends

theorem callbacks_serves (sound : type.Sound) (truthful : ∀ c, Truthful medium (drive c).controller) :
    Serves (readOnly (callbacks K ws checked type drive)) (fun _ => diskByte type medium) 512
      (type.numberOfSectors.toNat * 512) where
  read reads c succeeds _ b j below inside := by
    cases reads
    cases ran : clusterRead K ws checked type (drive c) c (fun _ => 0) with
    | none =>
      dsimp only at succeeds
      rw [ran, Option.map_none, Option.getD_none] at succeeds
      exact absurd succeeds (by decide)
    | some r =>
      dsimp only at succeeds ⊢
      rw [ran] at succeeds
      have success := readStatuses_success _ (fdPerformRead_status ran) succeeds
      obtain ⟨r', run, same⟩ := fdPerformRead_memory (memcpy (drive c).state.memory (drive c).buffer.toNat b 0 512) ran
      have run' : clusterRead K ws checked type (drive c) c b = some r' := run
      rw [run']
      dsimp only
      rw [if_pos below]
      exact fdPerformRead_bytes sound (truthful c) (by omega) run (same.trans success) j below
  ended reads c told := by
    cases reads
    cases ran : clusterRead K ws checked type (drive c) c (fun _ => 0) with
    | none =>
      dsimp only at told
      rw [ran, Option.map_none, Option.getD_none] at told
      exact absurd told (by decide)
    | some r =>
      dsimp only at told
      rw [ran] at told
      exact absurd told (readStatuses_not_ended _ (fdPerformRead_status ran))
  write writes := by cases writes
  other writes := by cases writes

theorem callbacks_sectors (sound : type.Sound) (truthful : ∀ c, Truthful medium (drive c).controller) :
    ReadsSectors (callbacks K ws checked type drive) (fun _ => diskByte type medium) type.numberOfSectors.toNat
      (Gives K ws checked type drive) where
  serves := callbacks_serves sound truthful
  given := by
    refine ⟨_, rfl, fun c ⟨r, run, success⟩ => ?_⟩
    dsimp only
    rw [run, Option.map_some, Option.getD_some, success]

end sectors

section reads

open Runs FileCursor

variable {H : Type} {K : Ex.KernelHeap H} {ws : Nat → Bool} {checked : Bool} {type : MediaType} {medium : Medium}
  {drive : Nat → Session H} {f : OpenFile Cc.File}

/-- A file that is open on the drive. -/
def DisketteReady (type : MediaType) (medium : Medium) : OpenFile Cc.File → Prop :=
  SectorFile (fun _ => True) id (diskByte type medium) type.numberOfSectors.toNat

def DisketteServed (K : Ex.KernelHeap H) (ws : Nat → Bool) (checked : Bool) (type : MediaType)
    (drive : Nat → Session H) : OpenFile Cc.File → ReadCall → Prop :=
  SectorsServed (Gives K ws checked type drive) id type.numberOfSectors.toNat

/-- The driver delivers the bytes of the diskette. -/
theorem fdDriver_plain (sound : type.Sound) (truthful : ∀ c, Truthful medium (drive c).controller) :
    PlainReads (fdDriver checked (callbacks K ws checked type drive)) (diskByte type medium) (DisketteReady type medium)
      (DisketteServed K ws checked type drive) :=
  (fdDriver_through checked (callbacks K ws checked type drive)).plain (callbacks_sectors sound truthful)

end reads

section volume

open Runs FileCursor Gr8os.FsFat

variable {H : Type} {K : Ex.KernelHeap H} {ws : Nat → Bool} {checked : Bool} {type : MediaType} {medium : Medium}
  {drive : Nat → Session H}

end volume

/-! A diskette of 1.44 MB in a drive that always answers. -/

theorem fdpCurrentType_sound : fdpCurrentType.Sound := fdpFloppyTypes_sound _ (by decide)

def numberedMedium : Medium := fun cylinder head sector j => BitVec.ofNat 8 (cylinder + head + sector + j)

def numberedController : Controller := fun command _ =>
  match command with
  | [_, _, cylinder, head, sector, _, _, _, _] => some ⟨0, 0, numberedMedium cylinder.toNat head.toNat sector.toNat⟩
  | _ => none

theorem numberedController_truthful : Truthful numberedMedium numberedController where
  known := by
    intro arguments writes reply answered
    unfold numberedController at answered
    split at answered
    · cases answered
      show (0 : BitVec 8).extractLsb' 6 2 ≠ fdInvalidCmd
      decide
    · cases answered
  reads := by
    intro drive cylinder head sector endOfTrack gap length writes reply answered _ j _
    cases answered
    rfl

theorem normal_success (page : Buffer) : Reply.status ⟨0, 0, page⟩ = .success := by
  have code : (Reply.mk 0 0 page).interruptCode = fdNormalExit := by
    show (0 : BitVec 8).extractLsb' 6 2 = fdNormalExit
    decide
  have ready : ¬fdNormalExit = fdNotReady := by decide
  have ends : ¬fdNormalExit = fdAbort := by decide
  unfold Reply.status
  rw [code, if_neg ready, if_neg ends]

def drive (_ : Nat) : Session Ex.Bump := ⟨started 16, numberedController, 40, 0x8000⟩

/-- The request for a sector is granted, and completed. -/
theorem started_completes : ∃ m dmaReq t,
    halInitializeDmaRequest (Ex.bumpHeap 64) (fun _ => false) (started 16) (dmaCall 0x8000 512) 40 = some m ∧
      m.status.isSuccess = true ∧ m.dmaRequest = some dmaReq ∧
      halCompleteDmaRequest (Ex.bumpHeap 64) true m.state dmaReq = some t := by
  have ends : ((halInitializeDmaRequest (Ex.bumpHeap 64) (fun _ => false) (started 16) (dmaCall 0x8000 512) 40).bind
      fun m => m.dmaRequest.bind fun dmaReq =>
        (halCompleteDmaRequest (Ex.bumpHeap 64) true m.state dmaReq).map fun _ => m.status.isSuccess) = some true := by
    decide
  obtain ⟨m, made, rest⟩ := Option.bind_eq_some_iff.mp ends
  obtain ⟨dmaReq, here, rest⟩ := Option.bind_eq_some_iff.mp rest
  obtain ⟨t, complete, success⟩ := Option.map_eq_some_iff.mp rest
  exact ⟨m, dmaReq, t, made, success, here, complete⟩

theorem drive_gives {n : Nat} (inside : n < 2880) :
    Gives (Ex.bumpHeap 64) (fun _ => false) true fdpCurrentType drive n := by
  obtain ⟨m, dmaReq, t, made, success, here, complete⟩ := started_completes
  exact clusterRead_succeeds (x := drive n) fdpCurrentType_sound inside made success here complete rfl (normal_success _) _

def disketteFile : OpenFile Cc.File where
  object := { readAccess := true, writeAccess := false, stackSize := ⟨1, Ide.one_location⟩ }
  device := Cc.opened false false
  memory _ := 0

theorem disketteFile_ready : DisketteReady fdpCurrentType numberedMedium disketteFile where
  kind := trivial
  access := rfl
  cached := rfl
  clusterSize := rfl
  clustersPerPage := by decide
  clean _ _ := CacheMap.view_none (freshMap_copyOf 512 32 _)

abbrev disketteDriver : Resources → FileDriver Cc.File :=
  fdDriver true (callbacks (Ex.bumpHeap 64) (fun _ => false) true fdpCurrentType drive)

theorem firstSector_served :
    DisketteServed (Ex.bumpHeap 64) (fun _ => false) true fdpCurrentType drive disketteFile Ide.readSector := by
  have last : (Ide.readSector.range disketteFile).last = 0 := by decide
  refine ⟨rfl, rfl, by decide, by decide, by decide, by decide, by decide, ?_, fun _ => rfl, ?_⟩
  · intro p _ before
    rw [last] at before
    exact absurd before (Nat.not_lt_zero p)
  · intro _ i below
    rw [last]
    exact drive_gives (by omega)

def disketteVolume : FsFat.Fsfatvcb := FsFat.volumeOn disketteDriver disketteFile

end Gr8os.Floppy
