import Gr8os.Io.Requests

/-! Where the bytes of a completed request go, and who gets its system buffer back. -/
namespace Gr8os.Io

open Bytes

section completion

variable {irp : Irp} {memory systemBuffer : Buffer} {buffer : Allocation}

/-- A request that is not completed twice is completed unless it is pending, and its buffer is released. -/
theorem ioCompleteRequest_buffer (located : irp.currentLocation ≤ irp.stackSize.1)
    (completed : irp.ioStatus.status ≠ Status.pending.code) (held : irp.systemBuffer = some buffer) :
    ioCompleteRequest irp memory systemBuffer = some {
      userIosb := ⟨irp.ioStatus.status, irp.information⟩
      memory := if irp.copiesBack then memcpy memory irp.userBuffer systemBuffer 0 irp.information.toNat else memory
      released :=
        if irp.flags.deallocateBuffer then
          [if irp.bufferLength < pageSize then .exFreeHeap buffer else .mmFreeMemory buffer irp.bufferLength]
        else [] } := by
  rw [ioCompleteRequest, if_neg (BitVec.not_lt.mpr located), if_neg completed, held]

theorem ioCompleteRequest_pending (pending : irp.ioStatus.status = Status.pending.code) :
    ioCompleteRequest irp memory systemBuffer = none := by
  rw [ioCompleteRequest, if_pos pending]
  exact ite_self none

theorem ioCompleteRequest_missing (missing : irp.systemBuffer = none) (releases : irp.flags.deallocateBuffer = true) :
    ioCompleteRequest irp memory systemBuffer = none := by
  rw [ioCompleteRequest, missing]
  dsimp only
  split
  · rfl
  · split
    · rfl
    · exact if_pos (.inl releases)

end completion

section control

variable {driver : ControlDriver} {r : ControlRequest}

def answer (driver : ControlDriver) (r : ControlRequest) : Answer :=
  driver (r.built { stackSize := r.stackSize }) r.input

/-- The first bytes of the result are in the output buffer, nothing else has changed there or in the input buffer, and
their number is told. -/
structure Delivers (driver : ControlDriver) (r : ControlRequest) (c : Completed) : Prop where
  result : ∀ k < (answer driver r).ioStatus.information.toNat,
    c.memory (r.outputBuffer + k) = (answer driver r).result k
  behind : ∀ k, (answer driver r).ioStatus.information.toNat ≤ k → k < r.outputBufferSize.toNat →
    c.memory (r.outputBuffer + k) = r.memory (r.outputBuffer + k)
  input : ∀ k < r.inputBufferSize.toNat, c.memory (r.inputBuffer + k) = r.memory (r.inputBuffer + k)
  information : c.userIosb.information = (answer driver r).ioStatus.information

/-- The caller's memory does not have to change: the output buffer holds the result before the request, and so does the
input buffer that a successful request copies it to. -/
structure AlreadyThere (driver : ControlDriver) (r : ControlRequest) : Prop where
  allocated : r.irpAllocated = true ∧ r.bufferAllocated = true
  completed : (answer driver r).ioStatus.status ≠ Status.pending.code
  unclamped : (answer driver r).ioStatus.information ≤ r.inputBufferSize
  output : ∀ k < (answer driver r).ioStatus.information.toNat,
    r.memory (r.outputBuffer + k) = (answer driver r).result k
  input : succeeded (answer driver r).ioStatus.status = true → ∀ k < (answer driver r).ioStatus.information.toNat,
    r.memory (r.inputBuffer + k) = (answer driver r).result k

/-- How many bytes are copied back. -/
def copied (driver : ControlDriver) (r : ControlRequest) : BitVec 32 :=
  if r.inputBufferSize < (answer driver r).ioStatus.information then r.inputBufferSize
  else (answer driver r).ioStatus.information

/-- What a control request comes to if it gets its buffers: the result is copied to the input buffer, the system buffer
is released by the length of the input. -/
def controlled (driver : ControlDriver) (r : ControlRequest) : Controlled :=
  let a := answer driver r
  { status := if succeeded a.returned && !succeeded a.ioStatus.status then a.ioStatus.status else a.returned
    completed := {
      userIosb := ⟨a.ioStatus.status, copied driver r⟩
      memory :=
        if succeeded a.ioStatus.status then memcpy r.memory r.inputBuffer a.result 0 (copied driver r).toNat else r.memory
      released :=
        [if r.inputBufferSize < pageSize then .exFreeHeap r.heapBuffer else .mmFreeMemory r.heapBuffer r.inputBufferSize] } }

/-- The request as the driver completes it. -/
def handled (driver : ControlDriver) (r : ControlRequest) : Irp :=
  { r.built { stackSize := r.stackSize } with ioStatus := (answer driver r).ioStatus }

def told (a : Answer) (c : Completed) : Controlled :=
  { status := if succeeded a.returned && !succeeded c.userIosb.status then c.userIosb.status else a.returned,
    completed := c }

theorem ioDeviceIoControlFile_built (allocated : r.irpAllocated = true)
    (given : r.bufferAllocated = true ∨ r.inputBufferSize = 0) : ioDeviceIoControlFile driver r =
      (ioCompleteRequest (handled driver r) r.memory (answer driver r).result).map (told (answer driver r)) := by
  have room : ¬r.stackSize.1 ≤ 0 := fun empty => r.stackSize.2 (BitVec.le_zero_iff.mp empty)
  have kept : ¬((!r.bufferAllocated) = true ∧ r.inputBufferSize ≠ 0) := by
    rintro ⟨refused, input⟩
    rcases given with buffer | empty
    · rw [buffer] at refused
      cases refused
    · exact input empty
  rw [ioDeviceIoControlFile, ioBuildDeviceIoControlRequest, ioAllocateIrp, if_pos allocated, Option.bind_some,
    if_neg kept, Option.bind_some]
  exact if_neg room

theorem ioDeviceIoControlFile_some (allocated : r.irpAllocated = true) (bufferAllocated : r.bufferAllocated = true)
    (completed : (answer driver r).ioStatus.status ≠ Status.pending.code) :
    ioDeviceIoControlFile driver r = some (controlled driver r) := by
  have held : (handled driver r).systemBuffer = some r.heapBuffer := if_pos bufferAllocated
  have located : (handled driver r).currentLocation ≤ (handled driver r).stackSize.1 := Nat.zero_le _
  rw [ioDeviceIoControlFile_built allocated (.inl bufferAllocated), ioCompleteRequest_buffer located completed held]
  have copies : (handled driver r).copiesBack = succeeded (answer driver r).ioStatus.status := Bool.true_and _
  have bytes : (handled driver r).information = copied driver r := by
    unfold Irp.information copied
    exact if_congr (and_iff_right rfl) rfl rfl
  rw [copies, bytes]
  rfl

/-- Without its buffers, or if it is still pending, the request is the machine's last. -/
theorem ioDeviceIoControlFile_none (refused : r.irpAllocated = false ∨ r.bufferAllocated = false ∨
    (answer driver r).ioStatus.status = Status.pending.code) : ioDeviceIoControlFile driver r = none := by
  cases allocated : r.irpAllocated with
  | false => rw [ioDeviceIoControlFile, ioBuildDeviceIoControlRequest, ioAllocateIrp, allocated]; rfl
  | true =>
    by_cases given : r.bufferAllocated = true ∨ r.inputBufferSize = 0
    · rw [ioDeviceIoControlFile_built allocated given]
      rcases refused with irp | buffer | pending
      · rw [allocated] at irp
        cases irp
      · have missing : (handled driver r).systemBuffer = none := by
          change r.systemBuffer = none
          rw [ControlRequest.systemBuffer, buffer, if_neg Bool.false_ne_true]
        rw [ioCompleteRequest_missing missing rfl]
        rfl
      · have pending : (handled driver r).ioStatus.status = Status.pending.code := pending
        rw [ioCompleteRequest_pending pending]
        rfl
    · rw [not_or] at given
      have none_built : ((!r.bufferAllocated) = true ∧ r.inputBufferSize ≠ 0) := by simpa using given
      rw [ioDeviceIoControlFile, ioBuildDeviceIoControlRequest, ioAllocateIrp, if_pos allocated, Option.bind_some,
        if_pos none_built]
      rfl

theorem copied_whole (unclamped : (answer driver r).ioStatus.information ≤ r.inputBufferSize) :
    copied driver r = (answer driver r).ioStatus.information := if_neg (BitVec.not_lt.mpr unclamped)

/-- The memory stays as it is if the input buffer holds what is copied to it. -/
theorem controlled_memory (unclamped : (answer driver r).ioStatus.information ≤ r.inputBufferSize) :
    (controlled driver r).completed.memory = r.memory ↔ (succeeded (answer driver r).ioStatus.status = true →
      ∀ k < (answer driver r).ioStatus.information.toNat, r.memory (r.inputBuffer + k) = (answer driver r).result k) := by
  rw [controlled]
  dsimp only
  by_cases success : succeeded (answer driver r).ioStatus.status = true
  · rw [if_pos success, copied_whole unclamped, memcpy_eq_self_iff]
    simp only [Nat.zero_add, success, forall_const]
  · rw [if_neg success]
    exact iff_of_true rfl fun impossible => absurd impossible success

/-- The output is never copied to, so that a control request delivers only what is there already. -/
theorem deliveredControl_iff : (∃ c, ioDeviceIoControlFile driver r = some c ∧ Delivers driver r c.completed) ↔
    AlreadyThere driver r := by
  constructor
  · rintro ⟨c, result, delivers⟩
    have accepted : ¬(r.irpAllocated = false ∨ r.bufferAllocated = false ∨
        (answer driver r).ioStatus.status = Status.pending.code) := by
      intro refused
      rw [ioDeviceIoControlFile_none refused] at result
      cases result
    rw [not_or, not_or, Bool.not_eq_false, Bool.not_eq_false] at accepted
    obtain ⟨allocated, bufferAllocated, completed⟩ := accepted
    rw [ioDeviceIoControlFile_some allocated bufferAllocated completed, Option.some.injEq] at result
    subst result
    have unclamped : (answer driver r).ioStatus.information ≤ r.inputBufferSize := by
      by_contra more
      have less := BitVec.not_le.mp more
      have whole : copied driver r = (answer driver r).ioStatus.information := delivers.information
      rw [copied, if_pos less] at whole
      exact absurd whole (BitVec.ne_of_lt less)
    -- The input buffer is as it was, so that what was copied to it was there.
    have input : succeeded (answer driver r).ioStatus.status = true →
        ∀ k < (answer driver r).ioStatus.information.toNat, r.memory (r.inputBuffer + k) = (answer driver r).result k := by
      intro success k below
      have inside : k < r.inputBufferSize.toNat := Nat.lt_of_lt_of_le below unclamped
      rw [← delivers.input k inside, controlled]
      dsimp only
      rw [if_pos success, copied_whole unclamped, memcpy_inside (Nat.le_add_right _ k) (Nat.add_lt_add_left below _)]
      congr 1
      omega
    refine ⟨⟨allocated, bufferAllocated⟩, completed, unclamped, ?_, input⟩
    intro k below
    rw [← delivers.result k below, (controlled_memory unclamped).mpr input]
  · rintro ⟨⟨allocated, bufferAllocated⟩, completed, unclamped, output, input⟩
    have memory := (controlled_memory unclamped).mpr input
    refine ⟨_, ioDeviceIoControlFile_some allocated bufferAllocated completed, ?_, ?_, ?_, copied_whole unclamped⟩
    · intro k below
      rw [memory, output k below]
    · intro k _ _
      rw [memory]
    · intro k _
      rw [memory]

end control

def fourBytes : ControlRequest where
  stackSize := ⟨1, by decide⟩
  ioControlCode := 0
  inputBuffer := 0
  inputBufferSize := 4
  outputBuffer := 16
  outputBufferSize := 4
  memory _ := 0
  irpAllocated := true
  bufferAllocated := true
  heapMemory _ := 0

/-- A driver whose result is four bytes of 0xFF. -/
def fullWord : ControlDriver := fun _ _ => ⟨fun _ => 0xFF, ⟨Status.success.code, 4⟩, Status.success.code⟩

theorem fullWord_undelivered : (answer fullWord fourBytes).ioStatus.information ≤ fourBytes.outputBufferSize ∧
    ¬∃ c, ioDeviceIoControlFile fullWord fourBytes = some c ∧ Delivers fullWord fourBytes c.completed := by
  refine ⟨by decide, ?_⟩
  rintro ⟨c, result, delivers⟩
  cases result
  exact absurd (delivers.result 0 (by decide)) (by decide)

/-- The requests that have a system buffer. -/
inductive Request
  | device (r : DeviceRequest)
  | control (r : ControlRequest)

def Request.build : Request → Option Irp
  | device r => (ioBuildDeviceRequest r).join
  | control r => (ioBuildDeviceIoControlRequest r).map Prod.fst

/-- What drivers and callers do to a request before it is completed leaves its buffer, its length and its flag alone. -/
structure Handled (irp irp' : Irp) : Prop where
  buffer : irp'.systemBuffer = irp.systemBuffer
  length : irp'.bufferLength = irp.bufferLength
  releases : irp'.flags.deallocateBuffer = irp.flags.deallocateBuffer
  located : irp'.currentLocation ≤ irp'.stackSize.1
  completed : irp'.ioStatus.status ≠ Status.pending.code

/-- The system buffer is released once, by the routine that belongs to its allocator and with its size. -/
def ReleasesBuffer (irp : Irp) : Prop :=
  ∀ irp', Handled irp irp' → ∀ memory systemBuffer, ∃ c buffer, ioCompleteRequest irp' memory systemBuffer = some c ∧
    irp.systemBuffer = some buffer ∧ c.released = [buffer.release]

/-- The allocator of a control request does not depend on the length of the input, its release does. -/
def Request.Paired : Request → Prop
  | device _ => True
  | control r => r.bufferAllocated = true ∧ r.inputBufferSize < pageSize

section release

variable {irp : Irp} {buffer : Allocation}

theorem releasesBuffer_of (held : irp.systemBuffer = some buffer) (releases : irp.flags.deallocateBuffer = true)
    (matched : (if irp.bufferLength < pageSize then .exFreeHeap buffer else .mmFreeMemory buffer irp.bufferLength) =
      buffer.release) : ReleasesBuffer irp := by
  intro irp' handled memory systemBuffer
  refine ⟨_, buffer, ioCompleteRequest_buffer handled.located handled.completed (handled.buffer.trans held), held, ?_⟩
  rw [handled.releases, releases, if_pos rfl, handled.length, matched]

theorem deviceRequest_releases {r : DeviceRequest} (built : (Request.device r).build = some irp) : ReleasesBuffer irp := by
  have built : (ioBuildDeviceRequest r).join = some irp := built
  rw [Option.join_eq_some_iff, ioBuildDeviceRequest, Option.map_eq_some_iff] at built
  obtain ⟨raw, -, made⟩ := built
  dsimp only at made
  by_cases refused : (!r.bufferAllocated) = true
  · rw [if_pos refused] at made
    cases made
  · rw [if_neg refused, Option.some.injEq] at made
    subst made
    refine releasesBuffer_of rfl rfl ?_
    dsimp only
    by_cases small : r.bufferSize < pageSize
    · rw [if_pos small, if_pos small]
      rfl
    · rw [if_neg small, if_neg small]
      rfl

theorem controlRequest_built {r : ControlRequest} (built : (Request.control r).build = some irp) :
    irp = r.built { stackSize := r.stackSize } := by
  obtain ⟨result, made, rfl⟩ := Option.map_eq_some_iff.mp built
  obtain ⟨raw, allocated, kept⟩ := Option.bind_eq_some_iff.mp made
  split at kept
  · cases kept
  · cases kept
    rw [ioAllocateIrp] at allocated
    split at allocated
    · cases allocated
      rfl
    · cases allocated

/-- Every device request gives its buffer back as it was allocated, and so do the control requests with less than a page
of input. -/
theorem releasesBuffer_iff {q : Request} (built : q.build = some irp) : ReleasesBuffer irp ↔ q.Paired := by
  cases q with
  | device r => exact iff_of_true (deviceRequest_releases built) trivial
  | control r =>
    have same := controlRequest_built built
    subst same
    constructor
    · intro releases
      have untouched : Handled (r.built { stackSize := r.stackSize }) (r.built { stackSize := r.stackSize }) :=
        ⟨rfl, rfl, rfl, Nat.zero_le _, show (0 : BitVec 32) ≠ Status.pending.code by decide⟩
      obtain ⟨c, buffer, completed, held, released⟩ := releases _ untouched r.memory r.input
      have allocated : r.bufferAllocated = true := by
        by_contra refused
        rw [show (r.built _).systemBuffer = none from if_neg refused] at held
        cases held
      have heap : (r.built { stackSize := r.stackSize }).systemBuffer = some r.heapBuffer := if_pos allocated
      cases held.symm.trans heap
      rw [ioCompleteRequest_buffer untouched.located untouched.completed heap, Option.some.injEq] at completed
      subst completed
      refine ⟨allocated, ?_⟩
      by_contra large
      have large : ¬(r.built { stackSize := r.stackSize }).bufferLength < pageSize := large
      dsimp only at released
      rw [if_neg large] at released
      cases released
    · rintro ⟨allocated, small⟩
      exact releasesBuffer_of (if_pos allocated) rfl (if_pos small)

end release

theorem fourBytes_released : ∃ irp, (Request.control fourBytes).build = some irp ∧ ReleasesBuffer irp :=
  ⟨_, rfl, (releasesBuffer_iff (q := .control fourBytes) rfl).mpr ⟨rfl, by decide⟩⟩

def pageOfInput : ControlRequest := { fourBytes with inputBufferSize := 4096 }

theorem pageOfInput_mismatched : ∃ irp, (Request.control pageOfInput).build = some irp ∧ ¬ReleasesBuffer irp := by
  refine ⟨_, rfl, fun releases => ?_⟩
  obtain ⟨c, buffer, completed, held, released⟩ :=
    releases _ ⟨rfl, rfl, rfl, by decide, by decide⟩ (fun _ => 0) fun _ => 0
  cases held
  cases completed
  cases released

end Gr8os.Io
