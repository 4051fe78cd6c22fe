import Gr8os.Lib.Bytes
import Gr8os.Status
import Mathlib.Data.BitVec

/-! Requests with a system buffer: how they are built, and what their completion copies and releases. A result of none
is a machine that no longer runs. -/
namespace Gr8os.Io

open Bytes

def pageSize : BitVec 32 := 4096

inductive Allocator
  | exAllocateHeap
  | mmAllocateMemory
deriving DecidableEq, Repr

structure Allocation where
  allocator : Allocator
  size : BitVec 32
deriving DecidableEq, Repr

inductive Release
  | exFreeHeap (buffer : Allocation)
  | mmFreeMemory (buffer : Allocation) (size : BitVec 32)
deriving DecidableEq, Repr

/-- The routine that gives back what was allocated. -/
def Allocation.release (buffer : Allocation) : Release :=
  match buffer.allocator with
  | .exAllocateHeap => .exFreeHeap buffer
  | .mmAllocateMemory => .mmFreeMemory buffer buffer.size

structure IoStatusBlock where
  status : BitVec 32 := 0
  information : BitVec 32 := 0
deriving DecidableEq, Repr

structure IrpFlags where
  bufferedIo : Bool := false
  deallocateBuffer : Bool := false
  inputOperation : Bool := false
deriving DecidableEq, Repr

/-- A device has a stack location at least. -/
abbrev StackSize := { size : BitVec 8 // size ≠ 0 }

structure IoCtl where
  ioControlCode : BitVec 32 := 0
  outputUserBuffer : Nat := 0
  outputBufferLength : BitVec 32 := 0
deriving DecidableEq, Repr

/-- Of the stack locations, which are copies of the first one, the parameters of a control request are kept. -/
structure Irp where
  flags : IrpFlags := {}
  majorFunction : BitVec 32 := 0
  systemBuffer : Option Allocation := none
  userBuffer : Nat := 0
  bufferLength : BitVec 32 := 0
  ioStatus : IoStatusBlock := {}
  stackSize : StackSize
  currentLocation : BitVec 8 := 0
  ioCtl : IoCtl := {}
deriving DecidableEq

def irpIoctl : BitVec 32 := 3

/-- Without memory for the request it is cleared through a null pointer. -/
def ioAllocateIrp (allocated : Bool) (stackSize : StackSize) : Option Irp :=
  if allocated then some { stackSize := stackSize } else none

/-- A request to a device that is to be built, and what is allocated for it. -/
structure DeviceRequest where
  stackSize : StackSize
  majorFunction : BitVec 32
  buffer : Nat
  bufferSize : BitVec 32
  irpAllocated : Bool
  bufferAllocated : Bool

/-- A null pointer is returned if there is no system buffer. -/
def ioBuildDeviceRequest (r : DeviceRequest) : Option (Option Irp) :=
  (ioAllocateIrp r.irpAllocated r.stackSize).map fun irp =>
    let allocator := if r.bufferSize < pageSize then Allocator.exAllocateHeap else .mmAllocateMemory
    if !r.bufferAllocated then none
    else some { irp with
      majorFunction := r.majorFunction
      userBuffer := r.buffer
      flags := { irp.flags with bufferedIo := true, deallocateBuffer := true }
      systemBuffer := some ⟨allocator, r.bufferSize⟩
      bufferLength := r.bufferSize
      currentLocation := 0 }

/-- A control request that is to be built, the memory of its caller, and what is allocated for it. -/
structure ControlRequest where
  stackSize : StackSize
  ioControlCode : BitVec 32
  inputBuffer : Nat
  inputBufferSize : BitVec 32
  outputBuffer : Nat
  outputBufferSize : BitVec 32
  memory : Buffer
  irpAllocated : Bool
  bufferAllocated : Bool
  heapMemory : Buffer

namespace ControlRequest

variable (r : ControlRequest)

def heapBuffer : Allocation where
  allocator := .exAllocateHeap
  size := if r.outputBufferSize < r.inputBufferSize then r.inputBufferSize else r.outputBufferSize

def systemBuffer : Option Allocation := if r.bufferAllocated then some r.heapBuffer else none

def built (irp : Irp) : Irp := { irp with
  majorFunction := irpIoctl
  userBuffer := r.inputBuffer
  flags := { bufferedIo := true, deallocateBuffer := true, inputOperation := true }
  systemBuffer := r.systemBuffer
  bufferLength := r.inputBufferSize
  currentLocation := 0
  ioCtl := ⟨r.ioControlCode, r.outputBuffer, r.outputBufferSize⟩ }

/-- What the system buffer holds when the driver is called. -/
def input : Buffer := memcpy r.heapMemory 0 r.memory r.inputBuffer r.inputBufferSize.toNat

end ControlRequest

/-- The system buffer is not looked at before the input is copied to it. -/
def ioBuildDeviceIoControlRequest (r : ControlRequest) : Option (Irp × Buffer) :=
  (ioAllocateIrp r.irpAllocated r.stackSize).bind fun irp =>
    if !r.bufferAllocated ∧ r.inputBufferSize ≠ 0 then none else some (r.built irp, r.input)

/-- What is left of a request: its status block as the caller sees it, the caller's memory and the buffers released. -/
structure Completed where
  userIosb : IoStatusBlock
  memory : Buffer
  released : List Release

/-- More bytes than BufferLength are never told to have been read. -/
def Irp.information (irp : Irp) : BitVec 32 :=
  if irp.flags.inputOperation ∧ irp.bufferLength < irp.ioStatus.information then irp.bufferLength
  else irp.ioStatus.information

def Irp.copiesBack (irp : Irp) : Bool :=
  (irp.flags.bufferedIo || irp.flags.inputOperation) && succeeded irp.ioStatus.status

/-- A request that is completed twice, or while it is pending, stops the machine, and so does the use of a null pointer
for the system buffer. -/
def ioCompleteRequest (irp : Irp) (memory systemBuffer : Buffer) : Option Completed :=
  if irp.stackSize.1 < irp.currentLocation then none
  else if irp.ioStatus.status = Status.pending.code then none
  else match irp.systemBuffer with
    | none =>
      if irp.flags.deallocateBuffer ∨ (irp.copiesBack ∧ irp.information ≠ 0) then none
      else some ⟨⟨irp.ioStatus.status, irp.information⟩, memory, []⟩
    | some buffer =>
      some {
        userIosb := ⟨irp.ioStatus.status, irp.information⟩
        memory :=
          if irp.copiesBack then memcpy memory irp.userBuffer systemBuffer 0 irp.information.toNat else memory
        released :=
          if irp.flags.deallocateBuffer then
            [if irp.bufferLength < pageSize then .exFreeHeap buffer else .mmFreeMemory buffer irp.bufferLength]
          else [] }

/-- What a driver leaves in the system buffer and in the request's status block, and what it returns. -/
structure Answer where
  result : Buffer
  ioStatus : IoStatusBlock
  returned : BitVec 32

/-- A driver that completes a control request before it returns. -/
abbrev ControlDriver := Irp → Buffer → Answer

structure Controlled where
  status : BitVec 32
  completed : Completed

def ioDeviceIoControlFile (driver : ControlDriver) (r : ControlRequest) : Option Controlled :=
  (ioBuildDeviceIoControlRequest r).bind fun (irp, systemBuffer) =>
    if irp.stackSize.1 ≤ irp.currentLocation then none
    else
      let answer := driver irp systemBuffer
      (ioCompleteRequest { irp with ioStatus := answer.ioStatus } r.memory answer.result).map fun c =>
        let failed := succeeded answer.returned && !succeeded c.userIosb.status
        { status := if failed then c.userIosb.status else answer.returned, completed := c }

end Gr8os.Io
