import Gr8os.Mm.Ppd
import Mathlib.Algebra.Group.Nat.Defs

/-! Mapping physical pages into the address space, and the working set that mapped pages join.
The page table is one array of PTEs over the whole address space; a PTE past its end is a fault,
and so is the descriptor of a page the machine does not have. -/
namespace Gr8os.Mm

/-- The ring between drivers and user programs has no area of its own. -/
inductive ProcessorMode
  | kernelMode
  | driverMode
  | unusedMode
  | userMode
deriving DecidableEq, Repr

def ProcessorMode.code : ProcessorMode → BitVec 2
  | kernelMode => 0
  | driverMode => 1
  | unusedMode => 2
  | userMode => 3

def mmUsermodeArea : BitVec 32 := 0x00010000
def mmUsermodeAreaEnd : BitVec 32 := 0x7FFFF000
def mmCriticalDriverArea : BitVec 32 := 0x80300000
def mmCriticalDriverAreaEnd : BitVec 32 := 0xBFFFFFFF
def mmDriverArea : BitVec 32 := 0xD4000000
def mmDriverAreaEnd : BitVec 32 := 0xFEFFFFFF
def mmCriticalArea : BitVec 32 := 0xFF000000
def mmCriticalAreaEnd : BitVec 32 := 0xFFFFDFFF

def pteTypeNormalOrNotmapped : BitVec 32 := 0
def pteTypeView : BitVec 32 := 3
def mdlLocked : BitVec 32 := 2
def mdlMapped : BitVec 32 := 4

/-- The index of a page that is in no working set. -/
def noWsIndex : Nat := 0xFFFFFFFF

def pageTableEntries : Nat := 2 ^ 20

/-- The address of a PTE, which is what a descriptor points back to. -/
def pteAddress (i : Nat) : Nat := 0xC0001000 + 4 * i

/-- Owner, Write and Valid, with the number of the page. -/
def validKernelPte (pfn : Nat) : Mmpte := 7 ||| (BitVec.ofNat 32 pfn <<< 12)

def mmPteIsFree (p : Mmpte) : Bool := !p.valid && p.pteType = pteTypeNormalOrNotmapped

/-! The working set. -/

def mmWorkingSetIncrement : Nat := 100

def sizeofMmworkingSetEntry : Nat := 8

namespace MmWorkingSet

def freeEntry (w : MmWorkingSet) : Option Nat :=
  (List.range w.totalPageCount).find? fun i => !(w.wsPages i).present

def setEntry (w : MmWorkingSet) (i : Nat) (e : MmWorkingSetEntry) : MmWorkingSet :=
  { w with wsPages := fun j => if j = i then e else w.wsPages j }

def clearPresent (w : MmWorkingSet) (i : Nat) : MmWorkingSet :=
  w.setEntry i { w.wsPages i with present := false }

/-- The larger array keeps its contents and the new entries are zeroed. -/
def grow (w : MmWorkingSet) : MmWorkingSet where
  totalPageCount := w.totalPageCount + mmWorkingSetIncrement
  wsPages j :=
    if w.totalPageCount ≤ j ∧ j < w.totalPageCount + mmWorkingSetIncrement then {} else w.wsPages j

end MmWorkingSet

/-- `heap` tells which sizes the array can be reallocated to, which are sizes of an address space. -/
def grows (heap : Nat → Bool) (w : MmWorkingSet) : Bool :=
  let size := sizeofMmworkingSetEntry * w.grow.totalPageCount
  size < 2 ^ 32 && heap size

/-- No result is an array that could not be enlarged. -/
def miAddPageToWorkingSet (heap : Nat → Bool) (w : MmWorkingSet) (ppd : Nat) :
    Option (Nat × MmWorkingSet) :=
  let entry : MmWorkingSetEntry := { pageDescriptor := ppd, present := true, lockedInWs := true }
  match w.freeEntry with
  | some i => some (i, w.setEntry i entry)
  | none =>
    if grows heap w then
      match w.grow.freeEntry with
      | some i => some (i, w.grow.setEntry i entry)
      | none => none
    else none

def miRemovePageFromWorkingSet (checked : Bool) (s : MmState) (ppd : Nat) : Option MmState :=
  if checked && (s.ppd ppd).pageLocation ≠ .activeAndValid then none
  else some { s with workingSet := s.workingSet.clearPresent (s.ppd ppd).u1 }

/-! Mapping. -/

def MmState.writePte (s : MmState) (i : Nat) (p : Mmpte) : Option MmState :=
  if i < pageTableEntries then some (s.setPte (BitVec.ofNat 20 i) p) else none

/-- The page is mapped for the first time. A page that cannot join the working set is a bugcheck. -/
def firstMapping (heap : Nat → Bool) (s : MmState) (ppd i : Nat) (addToWorkingSet : Bool)
    (targetMode : ProcessorMode) : Option MmState := do
  let s ← s.update ppd fun d =>
    { d with u2 := pteAddress i, u1 := noWsIndex, processorMode := targetMode.code }
  if addToWorkingSet then
    let (wsIndex, w) ← miAddPageToWorkingSet heap s.workingSet ppd
    let s : MmState := { s with workingSet := w }
    if wsIndex = noWsIndex then none
    else
      s.update ppd fun d =>
        { d with
          u1 := wsIndex
          belongsToSystemWorkingSet := d.belongsToSystemWorkingSet || targetMode = .kernelMode }
  else some s

def mapPage (heap : Nat → Bool) (s : MmState) (i pfn : Nat) (addToWorkingSet : Bool)
    (targetMode : ProcessorMode) : Option MmState := do
  let s ← s.writePte i (validKernelPte pfn)
  let ppd := mmPfnPpd s pfn
  let s ← s.update ppd fun d => { d with shareCount := d.shareCount + 1 }
  if (s.ppd ppd).shareCount = 1 then firstMapping heap s ppd i addToWorkingSet targetMode else some s

/-- The loop over the pages, which also tells the value that each write to a PTE replaces. -/
def mapPages (heap : Nat → Bool) (addToWorkingSet : Bool) (targetMode : ProcessorMode) :
    Nat → List Nat → MmState → Option (List Mmpte × MmState)
  | _, [], s => some ([], s)
  | i, pfn :: pfns, s => do
    let old := s.pte (BitVec.ofNat 20 i)
    let s ← mapPage heap s i pfn addToWorkingSet targetMode
    let (replaced, s) ← mapPages heap addToWorkingSet targetMode (i + 1) pfns s
    some (old :: replaced, s)

/-- The macro tests the PTE the scan stands at, whatever PTE it is given. -/
def runIsFree (pointerPte : Mmpte) (pageCount : Nat) : Bool :=
  mmPteIsFree pointerPte && (List.range' 1 (pageCount - 1)).all fun _ => mmPteIsFree pointerPte

/-- The first address of the scan at which the test is passed, `left` pages being still to look at. -/
def findFree (s : MmState) (virtual : BitVec 32) (pageCount : Nat) : Nat → Option (BitVec 32)
  | 0 => none
  | left + 1 =>
    if runIsFree (s.pte (vpn virtual)) pageCount then some virtual
    else findFree s (virtual + 0x1000) pageCount left

def pagesBetween (startVirtual endVirtual : BitVec 32) : Nat := ((endVirtual - startVirtual) >>> 12).toNat

/-- The address, or 0 when no room was found, and the PTEs that were replaced. -/
structure MapResult where
  address : BitVec 32
  replaced : List Mmpte
  state : MmState

/-- The page of a frame number that is stored in the 20 bits of a PTE. -/
def physicalFrames (physicalAddress : BitVec 32) (pageCount : Nat) : List Nat :=
  (List.range pageCount).map fun j => ((physicalAddress >>> 12).toNat + j) % 2 ^ 20

def mmMapPhysicalPagesInRange (heap : Nat → Bool) (s : MmState)
    (virtualAddressStart virtualAddressEnd physicalAddress pageCount : BitVec 32)
    (addToWorkingSet : Bool) (targetMode : ProcessorMode) : Option MapResult :=
  let startVirtual := alignDown virtualAddressStart
  let endVirtual := alignUp virtualAddressEnd
  match findFree s startVirtual pageCount.toNat (pagesBetween startVirtual endVirtual) with
  | none => some { address := 0, replaced := [], state := s }
  | some virtual => do
    let frames := physicalFrames physicalAddress pageCount.toNat
    let (replaced, s) ← mapPages heap addToWorkingSet targetMode (vpn virtual).toNat frames s
    some { address := virtual, replaced, state := s }

/-- The area that pages of a mode are mapped to. Another mode raises an exception. -/
def lockedPagesArea (targetMode : ProcessorMode) (isImage : Bool) : Option (BitVec 32 × BitVec 32) :=
  match targetMode with
  | .kernelMode =>
    if isImage then some (mmCriticalDriverArea, mmCriticalDriverAreaEnd)
    else some (mmCriticalArea, mmCriticalAreaEnd)
  | .driverMode => some (mmDriverArea, mmDriverAreaEnd)
  | .userMode => some (mmUsermodeArea, mmUsermodeAreaEnd)
  | .unusedMode => none

def mmMapLockedPages (heap : Nat → Bool) (s : MmState) (mmd : Mmd) (targetMode : ProcessorMode)
    (isImage addToWorkingSet : Bool) : Option (MapResult × Mmd) := do
  let (startVirtual, endVirtual) ← lockedPagesArea targetMode isImage
  match findFree s startVirtual mmd.pfnList.length (pagesBetween startVirtual endVirtual) with
  | none => some ({ address := 0, replaced := [], state := s }, mmd)
  | some virtual =>
    let (replaced, s) ← mapPages heap addToWorkingSet targetMode (vpn virtual).toNat mmd.pfnList s
    let mmd := { mmd with flags := mmd.flags ||| mdlMapped, mappedVirtual := virtual }
    some ({ address := virtual + mmd.offset, replaced, state := s }, mmd)

/-- The pages are not counted in their descriptors. -/
def miMapPages : Nat → List Nat → MmState → Option MmState
  | _, [], s => some s
  | i, pfn :: pfns, s => do
    let s ← s.writePte i (validKernelPte pfn)
    miMapPages (i + 1) pfns s

def miMapPhysicalPages (s : MmState) (virtualAddress physicalAddress pageCount : BitVec 32) :
    Option MmState :=
  miMapPages (vpn (alignDown virtualAddress)).toNat (physicalFrames physicalAddress pageCount.toNat) s

def unmapPage (checked : Bool) (s : MmState) (i : Nat) : Option MmState := do
  let ppd := mmPfnPpd s (s.pte (BitVec.ofNat 20 i)).pageFrameNumber
  let s ← s.writePte i 0
  let s ← s.update ppd fun d => { d with shareCount := d.shareCount - 1 }
  if (s.ppd ppd).shareCount = 0 then
    let s ← miRemovePageFromWorkingSet checked s ppd
    s.update ppd fun d => { d with u1 := noWsIndex, belongsToSystemWorkingSet := false }
  else some s

def unmapPages (checked : Bool) : Nat → Nat → MmState → Option MmState
  | _, 0, s => some s
  | i, left + 1, s => do
    let s ← unmapPage checked s i
    unmapPages checked (i + 1) left s

def miUnmapPhysicalPages (checked : Bool) (s : MmState) (virtualAddress : BitVec 32) (pageCount : Nat) :
    Option MmState :=
  unmapPages checked (vpn (alignDown virtualAddress)).toNat pageCount s

def mmUnmapLockedPages (checked : Bool) (s : MmState) (mmd : Mmd) : Option (MmState × Mmd) := do
  let s ← miUnmapPhysicalPages checked s mmd.mappedVirtual mmd.pfnList.length
  some (s, { mmd with mappedVirtual := 0, flags := mmd.flags &&& ~~~mdlMapped })

end Gr8os.Mm
