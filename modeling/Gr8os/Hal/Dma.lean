import Gr8os.Ex.LiveBlocks
import Gr8os.Hal.LowMeg
import Gr8os.Lib.Bytes
import Gr8os.Mm.Mapping
import Gr8os.Status

/-! DMA requests: their channels, the pages they use, and what is written to the ports of the controllers. -/
namespace Gr8os.Hal

def maxDmaChannels : Nat := 8

def dmaModeRead : BitVec 8 := 0x44
def dmaModeWrite : BitVec 8 := 0x48

def dma1MaskReg : BitVec 16 := 0x0A
def dma1ModeReg : BitVec 16 := 0x0B
def dma1ClearFfReg : BitVec 16 := 0x0C
def dma2MaskReg : BitVec 16 := 0xD4
def dma2ModeReg : BitVec 16 := 0xD6
def dma2ClearFfReg : BitVec 16 := 0xD8

/-- HalpDmaAddr. -/
def halpDmaAddr : List (BitVec 16) := [0x00, 0x02, 0x04, 0x06, 0xC0, 0xC4, 0xC8, 0xCC]

/-- HalpDmaCnt. -/
def halpDmaCnt : List (BitVec 16) := [0x01, 0x03, 0x05, 0x07, 0xC2, 0xC6, 0xCA, 0xCE]

/-- HalpDmaPage. The fourth channel has none. -/
def halpDmaPage : List (BitVec 16) := [0x87, 0x83, 0x81, 0x82, 0, 0x8B, 0x89, 0x8A]

structure PortWrite where
  port : BitVec 16
  value : BitVec 8
deriving DecidableEq, Repr

def halEnableDma (channel : BitVec 8) : PortWrite :=
  if channel ≤ 3 then ⟨dma1MaskReg, channel⟩ else ⟨dma2MaskReg, channel &&& 3⟩

def halDisableDma (channel : BitVec 8) : PortWrite :=
  if channel ≤ 3 then ⟨dma1MaskReg, channel ||| 4⟩ else ⟨dma2MaskReg, (channel &&& 3) ||| 4⟩

def halClearDmaFf (channel : BitVec 8) : PortWrite :=
  if channel ≤ 3 then ⟨dma1ClearFfReg, 0⟩ else ⟨dma2ClearFfReg, 0⟩

def halSetDmaMode (channel mode : BitVec 8) : PortWrite :=
  if channel ≤ 3 then ⟨dma1ModeReg, mode ||| channel⟩ else ⟨dma2ModeReg, mode ||| (channel &&& 3)⟩

/-- HalpDmaChannelBusy. -/
abbrev ChannelTable := BitVec 8 → BitVec 32

def halRequestDma (channelBusy : ChannelTable) (channel : BitVec 8) : Status × ChannelTable :=
  if channel.toNat ≥ maxDmaChannels then (.invalidParameter, channelBusy)
  else
    let marked := Function.update channelBusy channel 1
    if channelBusy channel ≠ 0 then (.busy, marked) else (.success, marked)

def halFreeDma (channelBusy : ChannelTable) (channel : BitVec 8) : Status × ChannelTable :=
  if channel.toNat ≥ maxDmaChannels then (.invalidParameter, channelBusy)
  else
    let cleared := Function.update channelBusy channel 0
    if channelBusy channel = 0 then (.alreadyFree, cleared) else (.success, cleared)

structure DmaRequest where
  readOperation : Bool
  channel : BitVec 8
  buffer : BitVec 32
  bufferSize : BitVec 32
  pageUsed : BitVec 8
  pageCount : BitVec 8
  mappedPhysical : BitVec 32
deriving DecidableEq, Repr

def sizeofDmaRequest : BitVec 32 := 20

/-- The variables that DMA requests share, over a heap in some state. -/
structure DmaState (H : Type) where
  controllerBusy : BitVec 32
  channelBusy : ChannelTable
  lowMeg : BusyTable
  heap : H
  mm : Mm.MmState
  memory : Bytes.Buffer
  requests : Nat → Option DmaRequest

/-- The arguments of HalInitializeDmaRequest. -/
structure DmaCall where
  dmaCommand : BitVec 8
  channel : BitVec 8
  buffer : BitVec 32
  size : BitVec 32
deriving DecidableEq, Repr

structure DmaResult (H : Type) where
  status : Status
  dmaRequest : Option Nat
  writes : List PortWrite
  state : DmaState H

def DmaResult.failed {H : Type} (status : Status) (state : DmaState H) : DmaResult H :=
  { status, dmaRequest := none, writes := [], state }

/-- The pages of a size, as the byte that they are counted in. -/
def pageCountOf (size : BitVec 32) : BitVec 8 :=
  ((if size &&& 0xFFF ≠ 0 then (size &&& ~~~0xFFF) + 0x1000 else size) >>> 12).setWidth 8

def physicalAddress (pageUsed : BitVec 8) : BitVec 32 := pageUsed.setWidth 32 <<< 12

def mmMapPhysicalPagesKernel (ws : Nat → Bool) (mm : Mm.MmState) (physicalAddress pageCount : BitVec 32) :
    Option Mm.MapResult :=
  Mm.mmMapPhysicalPagesInRange ws mm Mm.mmCriticalArea Mm.mmCriticalAreaEnd physicalAddress pageCount false .kernelMode

/-- What is written to the ports. A channel is below eight here. -/
def programDma (call : DmaCall) (pageUsed : BitVec 8) : List PortWrite :=
  let fAddr := physicalAddress pageUsed
  let seg := ((fAddr >>> 16) &&& 0xFF).setWidth 16
  let ofs := (fAddr &&& 0xFFFF).setWidth 16
  let channel := call.channel.toNat
  [halDisableDma call.channel,
    halClearDmaFf call.channel,
    ⟨halpDmaAddr.getD channel 0, ofs.setWidth 8⟩,
    ⟨halpDmaAddr.getD channel 0, (ofs >>> 8).setWidth 8⟩,
    halClearDmaFf call.channel,
    ⟨halpDmaCnt.getD channel 0, call.size.setWidth 8⟩,
    ⟨halpDmaCnt.getD channel 0, (call.size >>> 8).setWidth 8⟩,
    halSetDmaMode call.channel call.dmaCommand,
    ⟨halpDmaPage.getD channel 0, BitVec.setWidth 8 seg⟩,
    halEnableDma call.channel]

section requests

variable {H : Type} (K : Ex.KernelHeap H) (ws : Nat → Bool)

/-- The pages are mapped, and the transfer is made ready. -/
def startDma (s : DmaState H) (call : DmaCall) (dmaReq : Nat) (pageUsed : BitVec 8) (mapped : Mm.MapResult) :
    DmaResult H :=
  let request : DmaRequest := {
    readOperation := call.dmaCommand = dmaModeRead
    channel := call.channel
    buffer := call.buffer
    bufferSize := call.size
    pageUsed
    pageCount := pageCountOf call.size
    mappedPhysical := mapped.address }
  let memory :=
    if request.readOperation then s.memory
    else Bytes.memcpy s.memory mapped.address.toNat s.memory call.buffer.toNat call.size.toNat
  {
    status := .success
    dmaRequest := some dmaReq
    writes := programDma call pageUsed
    state := { s with mm := mapped.state, memory, requests := Function.update s.requests dmaReq (some request) } }

/-- The block and the channel are given back, the controller is not. -/
def undoDma (s : DmaState H) (call : DmaCall) (dmaReq : Nat) : DmaState H :=
  { s with heap := K.exFreeHeap s.heap dmaReq, channelBusy := (halFreeDma s.channelBusy call.channel).2 }

/-- The pages and their mapping, when the request has its channel and its block. -/
def initializeDma (s : DmaState H) (call : DmaCall) (dmaReq fuel : Nat) : Option (DmaResult H) :=
  (halAllocatePhysicalLowMegPages (pageCountOf call.size) s.lowMeg fuel).bind fun pages =>
    let s := { s with lowMeg := pages.2 }
    if pages.1 = 0 then some (.failed .insufficientResources (undoDma K s call dmaReq))
    else
      (mmMapPhysicalPagesKernel ws s.mm (physicalAddress pages.1) ((pageCountOf call.size).setWidth 32)).bind
        fun mapped =>
          if mapped.address = 0 then
            -- A bug check does not return.
            match halFreePhysicalLowMegPages s.lowMeg pages.1 (pageCountOf call.size) with
            | .error _ => none
            | .ok lowMeg =>
              some (.failed .insufficientResources (undoDma K { s with lowMeg, mm := mapped.state } call dmaReq))
          else some (startDma s call dmaReq pages.1 mapped)

def halInitializeDmaRequest (s : DmaState H) (call : DmaCall) (fuel : Nat) : Option (DmaResult H) :=
  let requested := halRequestDma s.channelBusy call.channel
  if s.controllerBusy = 1 then some (.failed .busy s)
  else if !requested.1.isSuccess then
    some (.failed .insufficientResources { s with controllerBusy := 1, channelBusy := requested.2 })
  else
    match K.exAllocateHeap s.heap sizeofDmaRequest with
    | none =>
      let channelBusy := (halFreeDma requested.2 call.channel).2
      some (.failed .insufficientResources { s with controllerBusy := 1, channelBusy })
    | some block =>
      let s := { s with controllerBusy := 1, channelBusy := requested.2, heap := block.2 }
      initializeDma K ws s call block.1 fuel

/-- A read is copied to the buffer, and everything that the request had is given back. -/
def halCompleteDmaRequest (checked : Bool) (s : DmaState H) (dmaReq : Nat) : Option (DmaState H) := do
  let request ← s.requests dmaReq
  if checked && request.readOperation && (request.mappedPhysical = 0 || request.buffer = 0) then none
  else
    let memory :=
      if request.readOperation then
        Bytes.memcpy s.memory request.buffer.toNat s.memory request.mappedPhysical.toNat request.bufferSize.toNat
      else s.memory
    let mm ← Mm.miUnmapPhysicalPages checked s.mm request.mappedPhysical request.pageCount.toNat
    match halFreePhysicalLowMegPages s.lowMeg request.pageUsed request.pageCount with
    | .error _ => none
    | .ok lowMeg =>
      some {
        s with
        controllerBusy := 0
        channelBusy := (halFreeDma s.channelBusy request.channel).2
        lowMeg
        heap := K.exFreeHeap s.heap dmaReq
        mm
        memory }

end requests

end Gr8os.Hal
