import Gr8os.Cc.WholeReads
import Gr8os.Io.RequestBuffers
import Gr8os.Lib.FileCursor
import Gr8os.Lib.Run

/-! Reads and writes of a file: the request that is sent to its device, where the file stands after it, and what the calls
get together: a device that answers each one with the bytes of the file makes them a plain file. -/
namespace Gr8os.Io

open Bytes

def irpRead : BitVec 32 := 1
def irpWrite : BitVec 32 := 2

structure LargeInteger where
  lowPart : BitVec 32 := 0
  highPart : BitVec 32 := 0
deriving DecidableEq, Repr

/-- The fields of a file object that a transfer looks at, and the stack size of its device. -/
structure FileObject where
  readAccess : Bool
  writeAccess : Bool
  stackSize : StackSize
  currentOffset : LargeInteger := {}
deriving DecidableEq

/-- A request packet with the parameters of a transfer in its stack locations. -/
structure TransferIrp extends Irp where
  offsetSpecified : Bool := false
  offset : LargeInteger := {}

/-- The packet with the status block that its driver fills in. -/
def Irp.answered (irp : Irp) (ioStatus : IoStatusBlock) : Irp := { irp with ioStatus := ioStatus }

/-- What the caller of a transfer passes, and what is allocated for it. -/
structure FileRequest where
  buffer : Nat
  length : BitVec 32
  fileOffset : Option LargeInteger
  flags : IrpFlags
  irpAllocated : Bool
  bufferAllocated : Bool
  systemMemory : Buffer

def FileRequest.deviceRequest (r : FileRequest) (file : FileObject) (majorFunction : BitVec 32) : DeviceRequest where
  stackSize := file.stackSize
  majorFunction := majorFunction
  buffer := r.buffer
  bufferSize := r.length
  irpAllocated := r.irpAllocated
  bufferAllocated := r.bufferAllocated

/-- Where a transfer begins. -/
def FileRequest.offset (r : FileRequest) (file : FileObject) : LargeInteger := r.fileOffset.getD file.currentOffset

def IrpFlags.or (flags more : IrpFlags) : IrpFlags where
  bufferedIo := flags.bufferedIo || more.bufferedIo
  deallocateBuffer := flags.deallocateBuffer || more.deallocateBuffer
  inputOperation := flags.inputOperation || more.inputOperation

/-- Only the low half of the offset is set. -/
def FileObject.advance (file : FileObject) (offset : LargeInteger) (information : BitVec 32) : FileObject :=
  { file with currentOffset := { file.currentOffset with lowPart := offset.lowPart + information } }

variable {σ : Type}

/-- A driver that completes a transfer before it returns, with what it knows of the file. -/
abbrev FileDriver (σ : Type) := σ → FileObject → TransferIrp → Buffer → Option (Answer × σ)

/-- What a transfer comes to; nothing is completed without access, or without a request. -/
structure Transferred (σ : Type) where
  status : BitVec 32
  file : FileObject
  device : σ
  completed : Option Completed

/-- The packet as the driver gets it. -/
def FileRequest.sent (r : FileRequest) (file : FileObject) (flags : IrpFlags) (irp : Irp) : TransferIrp :=
  { irp with
    flags := irp.flags.or (flags.or r.flags)
    offsetSpecified := r.fileOffset.isSome
    offset := r.offset file }

/-- What reads and writes do alike. -/
def ioTransferFile (access : Bool) (majorFunction : BitVec 32) (flags : IrpFlags) (input : Buffer) (driver : FileDriver σ)
    (device : σ) (file : FileObject) (memory : Buffer) (r : FileRequest) : Option (Transferred σ) :=
  if !access then some ⟨Status.accessDenied.code, file, device, none⟩
  else
    (ioBuildDeviceRequest (r.deviceRequest file majorFunction)).bind fun
      | none => some ⟨Status.insufficientResources.code, file, device, none⟩
      | some irp =>
        let irp := r.sent file flags irp
        if irp.stackSize.1 ≤ irp.currentLocation then none
        else
          (driver device file irp input).bind fun (answer, device) =>
            (ioCompleteRequest (irp.answered answer.ioStatus) memory answer.result).map fun c =>
              let status :=
                if succeeded answer.returned && !succeeded c.userIosb.status then c.userIosb.status else answer.returned
              { status := status
                file := if succeeded status then file.advance (r.offset file) c.userIosb.information else file
                device := device
                completed := some c }

def ioReadFile (driver : FileDriver σ) (device : σ) (file : FileObject) (memory : Buffer) (r : FileRequest) :
    Option (Transferred σ) :=
  ioTransferFile file.readAccess irpRead { inputOperation := true } r.systemMemory driver device file memory r

/-- The system buffer is filled before the driver gets it. -/
def ioWriteFile (driver : FileDriver σ) (device : σ) (file : FileObject) (memory : Buffer) (r : FileRequest) :
    Option (Transferred σ) :=
  ioTransferFile file.writeAccess irpWrite {} (memcpy r.systemMemory 0 memory r.buffer r.length.toNat) driver device file
    memory r

section transfers

variable {driver : FileDriver σ} {device device' : σ} {file : FileObject} {memory input : Buffer} {r : FileRequest}
  {majorFunction : BitVec 32} {flags : IrpFlags} {answer : Answer}

/-- The system buffer of a transfer. -/
def FileRequest.systemBuffer (r : FileRequest) : Allocation :=
  ⟨if r.length < pageSize then .exAllocateHeap else .mmAllocateMemory, r.length⟩

/-- The packet that is built for a transfer. -/
def FileRequest.built (r : FileRequest) (file : FileObject) (majorFunction : BitVec 32) : Irp where
  flags := { bufferedIo := true, deallocateBuffer := true }
  majorFunction := majorFunction
  systemBuffer := some r.systemBuffer
  userBuffer := r.buffer
  bufferLength := r.length
  stackSize := file.stackSize

/-- The packet that the driver gets. -/
def FileRequest.packet (r : FileRequest) (file : FileObject) (majorFunction : BitVec 32) (flags : IrpFlags) : TransferIrp :=
  r.sent file flags (r.built file majorFunction)

theorem ioBuildDeviceRequest_file (allocated : r.irpAllocated = true) (buffered : r.bufferAllocated = true) :
    ioBuildDeviceRequest (r.deviceRequest file majorFunction) = some (some (r.built file majorFunction)) := by
  unfold ioBuildDeviceRequest ioAllocateIrp FileRequest.deviceRequest
  rw [allocated, buffered, if_pos rfl]
  rfl

/-- The routine that gave the system buffer is told of by its length. -/
theorem FileRequest.systemBuffer_release (r : FileRequest) :
    (if r.length < pageSize then .exFreeHeap r.systemBuffer else .mmFreeMemory r.systemBuffer r.length) =
      r.systemBuffer.release := by
  unfold systemBuffer Allocation.release
  by_cases small : r.length < pageSize
  · rw [if_pos small, if_pos small]
  · rw [if_neg small, if_neg small]

/-- A transfer that the driver completes with success: the bytes that it tells of are copied to the caller's buffer, the
system buffer is given back, and the file stands behind them. -/
theorem ioTransferFile_completed (memory : Buffer) (allocated : r.irpAllocated = true) (buffered : r.bufferAllocated = true)
    (answered : driver device file (r.packet file majorFunction flags) input = some (answer, device'))
    (succeeds : succeeded answer.ioStatus.status = true) (told : answer.returned = answer.ioStatus.status)
    (completed : answer.ioStatus.status ≠ Status.pending.code) (fits : answer.ioStatus.information ≤ r.length) :
    ioTransferFile true majorFunction flags input driver device file memory r = some {
      status := answer.ioStatus.status
      file := file.advance (r.offset file) answer.ioStatus.information
      device := device'
      completed := some {
        userIosb := answer.ioStatus
        memory := memcpy memory r.buffer answer.result 0 answer.ioStatus.information.toNat
        released := [r.systemBuffer.release] } } := by
  have packet : r.sent file flags (r.built file majorFunction) = r.packet file majorFunction flags := rfl
  have room : ¬(r.packet file majorFunction flags).stackSize.1 ≤ (r.packet file majorFunction flags).currentLocation :=
    fun empty => file.stackSize.2 (BitVec.le_zero_iff.mp empty)
  let irp := (r.packet file majorFunction flags).answered answer.ioStatus
  have ends := @ioCompleteRequest_buffer irp memory answer.result r.systemBuffer (Nat.zero_le _) completed rfl
  have whole : irp.information = answer.ioStatus.information := by
    unfold Irp.information
    exact if_neg fun more => absurd more.2 (BitVec.not_lt.mpr fits)
  have copies : irp.copiesBack = true := succeeds
  have releases : irp.flags.deallocateBuffer = true := rfl
  have length : irp.bufferLength = r.length := rfl
  rw [whole, copies, releases, length, if_pos rfl, if_pos rfl, r.systemBuffer_release] at ends
  unfold ioTransferFile
  rw [if_neg (by decide : ¬(!true) = true), ioBuildDeviceRequest_file allocated buffered, Option.bind_some]
  dsimp only
  rw [packet, if_neg room, answered, Option.bind_some]
  dsimp only
  have status : irp.ioStatus.status = answer.ioStatus.status := rfl
  rw [ends, Option.map_some, told]
  simp only [status, succeeds, Bool.not_true, Bool.and_false, Bool.false_eq_true, if_false, if_true]
  rfl

theorem ioReadFile_completed (memory : Buffer) (access : file.readAccess = true) (allocated : r.irpAllocated = true)
    (buffered : r.bufferAllocated = true)
    (answered : driver device file (r.packet file irpRead { inputOperation := true }) r.systemMemory =
      some (answer, device'))
    (succeeds : succeeded answer.ioStatus.status = true) (told : answer.returned = answer.ioStatus.status)
    (completed : answer.ioStatus.status ≠ Status.pending.code) (fits : answer.ioStatus.information ≤ r.length) :
    ioReadFile driver device file memory r = some {
      status := answer.ioStatus.status
      file := file.advance (r.offset file) answer.ioStatus.information
      device := device'
      completed := some {
        userIosb := answer.ioStatus
        memory := memcpy memory r.buffer answer.result 0 answer.ioStatus.information.toNat
        released := [r.systemBuffer.release] } } := by
  unfold ioReadFile
  rw [access]
  exact ioTransferFile_completed memory allocated buffered answered succeeds told completed fits

/-- What the driver of a write gets: the caller's bytes. -/
def FileRequest.written (r : FileRequest) (memory : Buffer) : Buffer :=
  memcpy r.systemMemory 0 memory r.buffer r.length.toNat

/-- The system buffer of a write is copied back: the caller's memory stays as it is if the driver leaves the buffer alone. -/
theorem ioWriteFile_completed (access : file.writeAccess = true) (allocated : r.irpAllocated = true)
    (buffered : r.bufferAllocated = true)
    (answered : driver device file (r.packet file irpWrite {}) (r.written memory) = some (answer, device'))
    (succeeds : succeeded answer.ioStatus.status = true) (told : answer.returned = answer.ioStatus.status)
    (completed : answer.ioStatus.status ≠ Status.pending.code) (fits : answer.ioStatus.information ≤ r.length)
    (left : answer.result = r.written memory) :
    ioWriteFile driver device file memory r = some {
      status := answer.ioStatus.status
      file := file.advance (r.offset file) answer.ioStatus.information
      device := device'
      completed := some {
        userIosb := answer.ioStatus
        memory := memory
        released := [r.systemBuffer.release] } } := by
  have back : memcpy memory r.buffer answer.result 0 answer.ioStatus.information.toNat = memory := by
    rw [memcpy_eq_self_iff, left]
    intro j below
    have within : answer.ioStatus.information.toNat ≤ r.length.toNat := fits
    rw [Nat.zero_add, FileRequest.written, memcpy_inside (Nat.zero_le j) (by omega), Nat.sub_zero]
  have ends := ioTransferFile_completed memory allocated buffered answered succeeds told completed fits
  rw [back] at ends
  unfold ioWriteFile
  rw [access]
  exact ends

end transfers

open Bytes Runs FileCursor

/-- An open file, with what its device knows of it, and its reader's memory. -/
structure OpenFile (σ : Type) where
  object : FileObject
  device : σ
  memory : Buffer

structure ReadCall where
  k : Cc.Resources
  request : FileRequest

section reads

variable {σ : Type} (driver : Cc.Resources → FileDriver σ)

def readFile (f : OpenFile σ) (c : ReadCall) : Option (Transferred σ) :=
  ioReadFile (driver c.k) f.device f.object f.memory c.request

/-- The file and the memory after a call. -/
def OpenFile.after (f : OpenFile σ) (t : Transferred σ) : OpenFile σ where
  object := t.file
  device := t.device
  memory := (t.completed.map Completed.memory).getD f.memory

def readStep (f : OpenFile σ) (c : ReadCall) : Option (OpenFile σ) := (readFile driver f c).map f.after

variable {driver} {bytes : Nat → BitVec 8} {f : OpenFile σ} {c : ReadCall}

def OpenFile.cursor (f : OpenFile σ) : Cursor := ⟨f.object.currentOffset.lowPart.toNat, f.memory⟩

def ReadCall.read (c : ReadCall) : Read where
  place := c.request.fileOffset.map fun offset => offset.lowPart.toNat
  buffer := c.request.buffer
  length := c.request.length.toNat

def ReadCall.place (c : ReadCall) (f : OpenFile σ) : BitVec 32 := (c.request.offset f.object).lowPart

def ReadCall.range (c : ReadCall) (f : OpenFile σ) : Cc.Request := Cc.Request.start (c.place f) c.request.length

/-- The packet of a read. -/
def ReadCall.packet (c : ReadCall) (f : OpenFile σ) : TransferIrp :=
  c.request.packet f.object irpRead { inputOperation := true }

/-- The place that the packet names, or where the file stands. -/
theorem ReadCall.packet_place (c : ReadCall) (f : OpenFile σ) :
    (if (c.packet f).offsetSpecified then (c.packet f).offset.lowPart else f.object.currentOffset.lowPart) = c.place f := by
  unfold ReadCall.packet FileRequest.packet FileRequest.sent ReadCall.place FileRequest.offset
  cases c.request.fileOffset with
  | none => rfl
  | some offset => rfl

theorem ReadCall.start (c : ReadCall) (f : OpenFile σ) : f.cursor.start c.read = (c.place f).toNat := by
  unfold Cursor.start ReadCall.read ReadCall.place FileRequest.offset OpenFile.cursor
  cases c.request.fileOffset with
  | none => rfl
  | some offset => rfl

/-- The caller gets the bytes of the file and their number, the system buffer is given back, and the file stands behind the
bytes. -/
structure Delivered (bytes : Nat → BitVec 8) (f : OpenFile σ) (c : ReadCall) (t : Transferred σ) : Prop where
  status : succeeded t.status = true
  completed : t.completed = some {
    userIosb := ⟨t.status, c.request.length⟩
    memory := memcpy f.memory c.request.buffer bytes (c.place f).toNat c.request.length.toNat
    released := [c.request.systemBuffer.release] }
  object : t.file = f.object.advance (c.request.offset f.object) c.request.length
  fits : (c.place f).toNat + c.request.length.toNat < 4294967296

/-- A call that a device answers from the cache, with the whole of the range. -/
theorem readFile_whole {device : σ} {file : Cc.File} {disk : Nat → BitVec 8} {size : Nat}
    {res : BitVec 32 × Cc.Transfer} (access : f.object.readAccess = true) (irpAllocated : c.request.irpAllocated = true)
    (bufferAllocated : c.request.bufferAllocated = true)
    (answered : driver c.k f.device f.object (c.packet f) c.request.systemMemory =
      some (⟨res.2.buffer, ⟨res.1, res.2.nBytes⟩, res.1⟩, device))
    (whole : Cc.ReadWhole file disk size (c.range f) c.request.systemMemory res)
    (inside : (c.place f).toNat + c.request.length.toNat ≤ size)
    (fits : (c.place f).toNat + c.request.length.toNat < 4294967296)
    (same : ∀ i < size, disk i = bytes i) :
    ∃ t, readFile driver f c = some t ∧ Delivered bytes f c t ∧ t.device = device := by
  have told : res.2.nBytes = c.request.length := BitVec.eq_of_toNat_eq whole.nBytes
  have ends := ioReadFile_completed f.memory access irpAllocated bufferAllocated answered whole.succeeds rfl
    whole.completed (BitVec.le_of_eq told)
  refine ⟨_, ends, ⟨whole.succeeds, ?_, ?_, fits⟩, rfl⟩
  · have copied : memcpy f.memory c.request.buffer res.2.buffer 0 c.request.length.toNat =
        memcpy f.memory c.request.buffer bytes (c.place f).toNat c.request.length.toNat := by
      apply memcpy_congr
      intro j below
      have read : res.2.buffer j = disk ((c.place f).toNat + j) := by
        have within : j < 0 + c.request.length.toNat := by omega
        rw [whole.buffer, ReadCall.range, Cc.Request.start_position]
        exact memcpy_inside (Nat.zero_le j) within
      rw [Nat.zero_add, read, same]
      omega
    dsimp only
    rw [told, copied]
  · dsimp only
    rw [told]

/-- A call that is served moves the cursor and fills the memory as a read of the plain file does. -/
theorem Delivered.cursor {t : Transferred σ} (delivered : Delivered bytes f c t) :
    (f.after t).cursor = f.cursor.read bytes c.read := by
  have place : ((c.place f) + c.request.length).toNat = (c.place f).toNat + c.request.length.toNat := by
    rw [BitVec.toNat_add, Nat.mod_eq_of_lt delivered.fits]
  unfold Cursor.read
  rw [c.start]
  unfold OpenFile.cursor OpenFile.after
  rw [delivered.completed, delivered.object]
  show (⟨((c.place f) + c.request.length).toNat, _⟩ : Cursor) = _
  rw [place]
  rfl

/-- A device that delivers the bytes of the file to every call that it serves, and goes on doing so. -/
structure PlainReads (driver : Cc.Resources → FileDriver σ) (bytes : Nat → BitVec 8) (Ready : OpenFile σ → Prop)
    (Served : OpenFile σ → ReadCall → Prop) : Prop where
  call : ∀ {f c}, Ready f → Served f c →
    ∃ t, readFile driver f c = some t ∧ Delivered bytes f c t ∧ Ready (f.after t)

variable {Ready : OpenFile σ → Prop} {Served : OpenFile σ → ReadCall → Prop}

/-- The calls that are served, one after another. -/
abbrev ReadRun (driver : Cc.Resources → FileDriver σ) (Served : OpenFile σ → ReadCall → Prop) :
    OpenFile σ → List ReadCall → OpenFile σ → Prop :=
  Run (Guarded Served fun f c g => readStep driver f c = some g)

theorem PlainReads.step (plain : PlainReads driver bytes Ready Served) (ready : Ready f) (served : Served f c) :
    ∃ g, readStep driver f c = some g ∧ Ready g ∧ g.cursor = f.cursor.read bytes c.read := by
  obtain ⟨t, ends, delivered, ready'⟩ := plain.call ready served
  exact ⟨f.after t, by rw [readStep, ends, Option.map_some], ready', delivered.cursor⟩

theorem PlainReads.run {g : OpenFile σ} {cs : List ReadCall} (plain : PlainReads driver bytes Ready Served)
    (ready : Ready f) (run : ReadRun driver Served f cs g) :
    Ready g ∧ g.cursor = (cs.map ReadCall.read).foldl (Cursor.read bytes) f.cursor := by
  induction run with
  | done f => exact ⟨ready, rfl⟩
  | @next f g h c cs first rest ih =>
    obtain ⟨g', ends, ready', cursor⟩ := plain.step ready first.1
    cases ends.symm.trans first.2
    obtain ⟨later, reads⟩ := ih ready'
    refine ⟨later, ?_⟩
    rw [reads, List.map_cons, List.foldl_cons, cursor]

/-- However many calls have read such a file, from the place where it stood or from places that they named: what they have read
is the plain file, and the next call that is served gets its bytes too. -/
theorem PlainReads.refines {g : OpenFile σ} {cs : List ReadCall} (plain : PlainReads driver bytes Ready Served)
    (ready : Ready f) (run : ReadRun driver Served f cs g) :
    g.cursor = (cs.map ReadCall.read).foldl (Cursor.read bytes) f.cursor ∧
      ∀ c, Served g c → ∃ t, readFile driver g c = some t ∧ succeeded t.status = true ∧ t.completed = some {
        userIosb := ⟨t.status, c.request.length⟩
        memory := memcpy g.memory c.request.buffer bytes (c.place g).toNat c.request.length.toNat
        released := [c.request.systemBuffer.release] } := by
  obtain ⟨ready', cursor⟩ := plain.run ready run
  refine ⟨cursor, fun c served => ?_⟩
  obtain ⟨t, ends, delivered, -⟩ := plain.call ready' served
  exact ⟨t, ends, delivered.status, delivered.completed⟩

/-- Calls that read the next pieces of a file to places that follow each other in the caller's buffer, where each piece is of
some kind. -/
def Pieces (Kind : Nat → ReadCall → Prop) : Nat → Nat → List ReadCall → Prop
  | _, _, [] => True
  | place, base, c :: cs => (c.request.fileOffset = none ∧ c.request.buffer = base ∧ Kind place c) ∧
      Pieces Kind (place + c.request.length.toNat) (base + c.request.length.toNat) cs

variable {Kind : Nat → ReadCall → Prop}

theorem Pieces.consecutive {place base : Nat} {cs : List ReadCall} (pieces : Pieces Kind place base cs) :
    Consecutive base (cs.map ReadCall.read) := by
  induction cs generalizing place base with
  | nil => trivial
  | cons c cs ih =>
    obtain ⟨⟨unplaced, follows, -⟩, rest⟩ := pieces
    exact ⟨by rw [ReadCall.read, unplaced]; rfl, follows, ih rest⟩

theorem ReadCall.place_unplaced (unplaced : c.request.fileOffset = none) : (c.place f).toNat = f.cursor.place := by
  rw [ReadCall.place, FileRequest.offset, unplaced]
  rfl

/-- Pieces of a kind that is served are read one after another. -/
theorem PlainReads.pieces_run {base : Nat} {cs : List ReadCall} (plain : PlainReads driver bytes Ready Served)
    (serves : ∀ {f c}, Ready f → c.request.fileOffset = none → Kind f.cursor.place c → Served f c) (ready : Ready f)
    (pieces : Pieces Kind f.cursor.place base cs) : ∃ g, ReadRun driver Served f cs g := by
  induction cs generalizing f base with
  | nil => exact ⟨f, .done f⟩
  | cons c cs ih =>
    obtain ⟨⟨unplaced, -, kind⟩, rest⟩ := pieces
    have served := serves ready unplaced kind
    obtain ⟨g, step, ready', cursor⟩ := plain.step ready served
    have place : g.cursor.place = f.cursor.place + c.request.length.toNat := by
      rw [cursor, Cursor.read, Cursor.start, ReadCall.read, unplaced]
      rfl
    rw [← place] at rest
    obtain ⟨h, run⟩ := ih ready' rest
    exact ⟨h, .next ⟨served, step⟩ run⟩

theorem PlainReads.pieces {base : Nat} {cs : List ReadCall} (plain : PlainReads driver bytes Ready Served)
    (serves : ∀ {f c}, Ready f → c.request.fileOffset = none → Kind f.cursor.place c → Served f c) (ready : Ready f)
    (pieces : Pieces Kind f.cursor.place base cs) : ∃ g, exec (readStep driver) f cs = some g ∧ Ready g ∧
      g.cursor = ⟨f.cursor.place + total (cs.map ReadCall.read),
        memcpy f.memory base bytes f.cursor.place (total (cs.map ReadCall.read))⟩ := by
  obtain ⟨g, run⟩ := plain.pieces_run serves ready pieces
  obtain ⟨ready', cursor⟩ := plain.run ready run
  rw [reads_consecutive _ pieces.consecutive] at cursor
  exact ⟨g, exec_run.mpr (run.mono And.right), ready', cursor⟩

end reads

end Gr8os.Io
