import Gr8os.Lib.Chain
import Gr8os.Lib.Run
import Gr8os.Status

/-! Page descriptors and the operations that move them between the page lists.
A descriptor is named by its address. Both of its unions are kept as raw words:
the same word is a list link, a working-set index or a PTE address. A result of
none is a machine that no longer runs: a fault on an unmapped descriptor, a bugcheck or,
in a checked build, a failed assertion. -/
namespace Gr8os.Mm

open Intrusive

inductive PageList
  | zeroedPageList
  | freePageList
  | modifiedPageList
  | standbyPageList
deriving DecidableEq, Repr

/-- The locations below ActiveAndValid are the four lists. -/
inductive PageLocation
  | list (l : PageList)
  | activeAndValid
  | transitionPage
  | reservedOrBadPage
deriving DecidableEq, Repr

@[ext] structure Mmppd where
  u1 : Nat
  u2 : Nat
  pageLocation : PageLocation
  modified : Bool
  belongsToSystemWorkingSet : Bool := false
  processorMode : BitVec 2 := 0
  shareCount : BitVec 5 := 0
deriving DecidableEq, Repr

structure MmWorkingSetEntry where
  pageDescriptor : Nat := 0
  present : Bool := false
  lockedInWs : Bool := false
deriving DecidableEq, Repr

/-- What lies past the array is memory of something else. -/
structure MmWorkingSet where
  totalPageCount : Nat := 0
  wsPages : Nat → MmWorkingSetEntry := fun _ => {}

abbrev Mmpte := BitVec 32

namespace Mmpte

def valid (p : Mmpte) : Bool := p.getLsbD 0
def write (p : Mmpte) : Bool := p.getLsbD 1
def dirty (p : Mmpte) : Bool := p.getLsbD 6
def pteType (p : Mmpte) : BitVec 32 := (p >>> 9) &&& 3
def protection (p : Mmpte) : BitVec 32 := (p >>> 1) &&& 7
def pageFrameNumber (p : Mmpte) : Nat := (p >>> 12).toNat
def setValid (p : Mmpte) (b : Bool) : Mmpte := (p &&& 0xFFFFFFFE) ||| (if b then 1 else 0)
def setWrite (p : Mmpte) (b : Bool) : Mmpte := (p &&& 0xFFFFFFFD) ||| (if b then 2 else 0)
def setPteType (p : Mmpte) (t : BitVec 32) : Mmpte := (p &&& 0xFFFFF9FF) ||| (t <<< 9)
def setProtection (p : Mmpte) (v : BitVec 32) : Mmpte := (p &&& 0xFFFFFFF1) ||| (v <<< 1)

end Mmpte

def pteTypeTrimmed : BitVec 32 := 2
def mmReadonly : BitVec 32 := 1
def mmReadwrite : BitVec 32 := 3
def mmExecuteReadwrite : BitVec 32 := 4
def mdlAllocated : BitVec 32 := 1

/-- The page count is the length of the PFN list. -/
structure Mmd where
  flags : BitVec 32
  pfnList : List Nat
  baseVirtual : BitVec 32 := 0
  mappedVirtual : BitVec 32 := 0
  offset : BitVec 32 := 0
deriving DecidableEq, Repr

@[ext] structure MmState where
  physicalMemoryPages : Nat
  mmPpdDatabase : Nat
  ppd : Nat → Mmppd
  pageListHead : PageList → Nat
  pte : BitVec 20 → Mmpte
  workingSet : MmWorkingSet := {}

def sizeofMmppd : Nat := 12

def mmPfnPpd (s : MmState) (pfn : Nat) : Nat := s.mmPpdDatabase + sizeofMmppd * pfn
def mmGetPpdPfn (s : MmState) (ppd : Nat) : Nat := (ppd - s.mmPpdDatabase) / sizeofMmppd

/-- The addresses that hold a descriptor of a page of physical memory. -/
def MmState.Mapped (s : MmState) (ppd : Nat) : Prop :=
  mmPfnPpd s (mmGetPpdPfn s ppd) = ppd ∧ mmGetPpdPfn s ppd < s.physicalMemoryPages

instance (s : MmState) (ppd : Nat) : Decidable (s.Mapped ppd) :=
  inferInstanceAs (Decidable (_ ∧ _))

def MmState.update (s : MmState) (ppd : Nat) (f : Mmppd → Mmppd) : Option MmState :=
  if s.Mapped ppd then some { s with ppd := fun p => if p = ppd then f (s.ppd p) else s.ppd p } else none

def MmState.setNextFlink (s : MmState) (ppd next : Nat) : Option MmState :=
  s.update ppd fun d => { d with u1 := next }

def MmState.setPrevBlink (s : MmState) (ppd prev : Nat) : Option MmState :=
  s.update ppd fun d => { d with u2 := prev }

def MmState.setHead (s : MmState) (l : PageList) (ppd : Nat) : MmState :=
  { s with pageListHead := fun k => if k = l then ppd else s.pageListHead k }

def miUnlinkPpd (s : MmState) (ppd : Nat) (l : PageList) : Option MmState := do
  let prev := (s.ppd ppd).u2
  let next := (s.ppd ppd).u1
  let s ← if prev = 0 then
      let s := s.setHead l next
      if next ≠ 0 then s.setPrevBlink next 0 else some s
    else some s
  let s ← if next = 0 then
      if prev ≠ 0 then s.setNextFlink prev 0 else some s
    else some s
  if prev ≠ 0 ∧ next ≠ 0 then
    let s ← s.setNextFlink prev next
    s.setPrevBlink next prev
  else some s

def miLinkPpd (s : MmState) (l : PageList) (ppd : Nat) : Option MmState := do
  let s ← s.setNextFlink ppd (s.pageListHead l)
  let s ← s.setPrevBlink ppd 0
  let s ← if s.pageListHead l ≠ 0 then s.setPrevBlink (s.pageListHead l) ppd else some s
  some (s.setHead l ppd)

def leaveLists (s : MmState) (ppd : Nat) : Option MmState :=
  match (s.ppd ppd).pageLocation with
  | .list l => miUnlinkPpd s ppd l
  | _ => some s

def joinLists (s : MmState) (ppd : Nat) : PageLocation → Option MmState
  | .list l => miLinkPpd s l ppd
  | _ => s.update ppd fun d => { d with u1 := 0, u2 := 0 }

/-- `checked` tells a build whose assertions stop the machine. -/
def miChangePageLocation (checked : Bool) (s : MmState) (ppd : Nat) (newLocation : PageLocation) :
    Option MmState :=
  if !s.Mapped ppd then none
  else if checked && (s.ppd ppd).pageLocation = newLocation then none
  else do
    let s ← leaveLists s ppd
    let s ← joinLists s ppd newLocation
    s.update ppd fun d => { d with pageLocation := newLocation }

def alignDown (x : BitVec 32) : BitVec 32 := x &&& ~~~0xFFF
def alignUp (x : BitVec 32) : BitVec 32 := if x &&& 0xFFF ≠ 0 then alignDown x + 0x1000 else x

def changeAll (checked : Bool) (newLocation : PageLocation) : List Nat → MmState → Option MmState
  | [], s => some s
  | pfn :: pfns, s => do
    let s ← miChangePageLocation checked s (mmPfnPpd s pfn) newLocation
    changeAll checked newLocation pfns s

def mmReservePhysicalAddressRange (checked : Bool) (s : MmState) (physStart physEnd : BitVec 32) :
    Option MmState :=
  let pageStart := (alignDown physStart >>> 12).toNat
  let pageEnd := (alignUp physEnd >>> 12).toNat
  changeAll checked .reservedOrBadPage (List.range' pageStart (pageEnd - pageStart)) s

/-- One of the two allocation loops. A store past the array of `remaining` entries stops the machine. -/
def takePages (checked : Bool) : Nat → Nat → List Nat → MmState → Option (List Nat × MmState)
  | _, 0, pages, s => some (pages, s)
  | 0, _ + 1, _, _ => none
  | remaining + 1, ppd@(_ + 1), pages, s => do
    let next := (s.ppd ppd).u1
    let s ← miChangePageLocation checked s ppd .activeAndValid
    let pages := pages ++ [mmGetPpdPfn s ppd]
    if remaining = 0 then some (pages, s) else takePages checked remaining next pages s

def mmAllocatePhysicalPages (checked : Bool) (s : MmState) (pageCount : Nat)
    (arrayAllocated mmdAllocated : Bool) : Option (Status × Option Mmd × MmState) := do
  if pageCount > s.physicalMemoryPages then some (.insufficientResources, none, s)
  else if !arrayAllocated then some (.insufficientResources, none, s)
  else
    let (pages, s) ← takePages checked pageCount (s.pageListHead .freePageList) [] s
    let (pages, s) ← if pages.length < pageCount then
        takePages checked (pageCount - pages.length) (s.pageListHead .zeroedPageList) pages s
      else some (pages, s)
    let status := if pages.length < pageCount then Status.partialCompletion else .success
    some (status, if mmdAllocated then some { flags := mdlAllocated, pfnList := pages } else none, s)

def mmFreePhysicalPages (checked : Bool) (s : MmState) (mmd : Mmd) : Option (Mmd × MmState) := do
  let s ← changeAll checked (.list .freePageList) mmd.pfnList s
  some ({ mmd with flags := mmd.flags &&& ~~~mdlAllocated }, s)

/-- One pass over the free list between two delays of the zero page thread. -/
def miZeroPages (checked : Bool) : Nat → Nat → MmState → Option MmState
  | _, 0, s => some s
  | 0, _ + 1, _ => none
  | fuel + 1, ppd@(_ + 1), s => do
    let next := (s.ppd ppd).u1
    let s ← miChangePageLocation checked s ppd (.list .zeroedPageList)
    miZeroPages checked fuel next s

def miZeroPageThread (checked : Bool) (s : MmState) : Option MmState :=
  miZeroPages checked s.physicalMemoryPages (s.pageListHead .freePageList) s

def vpn (virtualAddress : BitVec 32) : BitVec 20 := (virtualAddress >>> 12).setWidth 20

def MmState.setPte (s : MmState) (i : BitVec 20) (p : Mmpte) : MmState :=
  { s with pte := fun j => if j = i then p else s.pte j }

def mmTrimPage (checked : Bool) (s : MmState) (virtualAddress : BitVec 32) : Option MmState := do
  let pte := s.pte (vpn virtualAddress)
  let ppd := mmPfnPpd s pte.pageFrameNumber
  if checked && !pte.valid then none
  else if checked && (s.ppd ppd).pageLocation ≠ .activeAndValid then none
  else
    let s ← if pte.dirty then do
        let s ← s.update ppd fun d => { d with modified := true }
        miChangePageLocation checked s ppd (.list .modifiedPageList)
      else miChangePageLocation checked s ppd (.list .standbyPageList)
    let trimmed := (pte.setValid false).setPteType pteTypeTrimmed
    let protection := if trimmed.write then mmReadwrite else mmReadonly
    some (s.setPte (vpn virtualAddress) (trimmed.setProtection protection))

/-- The fault on a trimmed page. A view is resolved elsewhere, any other fault is a bugcheck. -/
def mmAccessFault (checked : Bool) (s : MmState) (virtualAddress : BitVec 32) (writeFault : Bool) :
    Option MmState := do
  let pte := s.pte (vpn virtualAddress)
  if writeFault && pte.valid then none
  else if pte.pteType ≠ pteTypeTrimmed then none
  else
    let write := pte.protection = mmReadwrite ∨ pte.protection = mmExecuteReadwrite
    let s := s.setPte (vpn virtualAddress) ((pte.setWrite write).setValid true)
    miChangePageLocation checked s (mmPfnPpd s pte.pageFrameNumber) .activeAndValid

inductive MmOp
  | allocate (pageCount : Nat) (arrayAllocated mmdAllocated : Bool)
  | free (mmd : Mmd)
  | reserve (physStart physEnd : BitVec 32)
  | zero
  | trim (virtualAddress : BitVec 32)
  | fault (virtualAddress : BitVec 32) (writeFault : Bool)

def mmStep (checked : Bool) (s : MmState) : MmOp → Option MmState
  | .allocate n a m => (mmAllocatePhysicalPages checked s n a m).map fun r => r.2.2
  | .free mmd => (mmFreePhysicalPages checked s mmd).map Prod.snd
  | .reserve a b => mmReservePhysicalAddressRange checked s a b
  | .zero => miZeroPageThread checked s
  | .trim va => mmTrimPage checked s va
  | .fault va w => mmAccessFault checked s va w

end Gr8os.Mm
