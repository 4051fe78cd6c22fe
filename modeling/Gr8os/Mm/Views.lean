import Gr8os.Lib.Bits
import Gr8os.Mm.WorkingSet

/-! Views of mapped files: ranges of the address space whose PTEs name a mapping until they are touched. -/
namespace Gr8os.Mm

namespace Mmpte

def fileDescriptorNumber (p : Mmpte) : BitVec 16 := (p >>> 12).setWidth 16
def setFileDescriptorNumber (p : Mmpte) (n : BitVec 16) : Mmpte := (p &&& 0xF0000FFF) ||| (n.setWidth 32 <<< 12)

theorem getLsbD_setFileDescriptorNumber (p : Mmpte) (n : BitVec 16) (i : Nat) (inside : i < 32) :
    (p.setFileDescriptorNumber n).getLsbD i =
      if 12 ≤ i ∧ i < 28 then n.getLsbD (i - 12) else p.getLsbD i := by
  have fits : ∀ i, 28 ≤ 12 + i → (n.setWidth 32).getLsbD i = false := by
    intro i past
    rw [BitVec.getLsbD_setWidth, BitVec.getLsbD_of_ge n i (by omega), Bool.and_false]
  rw [setFileDescriptorNumber, Bits.getLsbD_setField (by decide) fits i inside]
  split
  · rw [BitVec.getLsbD_setWidth, decide_eq_true (by omega), Bool.true_and]
  · rfl

theorem getLsbD_setProtection (p v : BitVec 32) (small : v ≤ 7) (i : Nat) (inside : i < 32) :
    (setProtection p v).getLsbD i = if 1 ≤ i ∧ i < 4 then v.getLsbD (i - 1) else p.getLsbD i := by
  have fits : ∀ i, 4 ≤ 1 + i → v.getLsbD i = false := by
    intro i past
    exact Bits.getLsbD_of_small (k := 3) (Nat.lt_succ_of_le (BitVec.le_def.mp small)) (by omega)
  exact Bits.getLsbD_setField (by decide) fits i inside

theorem pteType_eq {p q : Mmpte} (low : p.getLsbD 9 = q.getLsbD 9) (high : p.getLsbD 10 = q.getLsbD 10) :
    p.pteType = q.pteType := by
  apply BitVec.eq_of_getLsbD_eq
  intro i inside
  rw [pteType, pteType, BitVec.getLsbD_and, BitVec.getLsbD_and, BitVec.getLsbD_ushiftRight, BitVec.getLsbD_ushiftRight]
  match i with
  | 0 => rw [low]
  | 1 => rw [high]
  | i + 2 =>
    have off : (3 : BitVec 32).getLsbD (i + 2) = false := Bits.getLsbD_of_small (k := 2) (by decide) (by omega)
    rw [off, Bool.and_false, Bool.and_false]

theorem pteType_setPteType (p v : BitVec 32) (small : v ≤ 3) : pteType (setPteType p v) = v := by
  have fits : ∀ i, 11 ≤ 9 + i → v.getLsbD i = false := by
    intro i past
    exact Bits.getLsbD_of_small (k := 2) (Nat.lt_succ_of_le (BitVec.le_def.mp small)) (by omega)
  apply BitVec.eq_of_getLsbD_eq
  intro i inside
  rw [pteType, BitVec.getLsbD_and, BitVec.getLsbD_ushiftRight]
  rcases Nat.lt_or_ge i 2 with low | high
  · have on : (3 : BitVec 32).getLsbD i = true := by
      revert i
      decide
    have field : (setPteType p v).getLsbD (9 + i) = _ := Bits.getLsbD_setField (by decide) fits (9 + i) (by omega)
    rw [field, if_pos (by omega), Nat.add_sub_cancel_left, on, Bool.and_true]
  · rw [fits i (by omega), Bits.getLsbD_of_small (x := (3 : BitVec 32)) (k := 2) (by decide) high, Bool.and_false]

theorem pteType_setFileDescriptorNumber (p : Mmpte) (n : BitVec 16) :
    (p.setFileDescriptorNumber n).pteType = p.pteType := by
  apply pteType_eq
  · exact getLsbD_setFileDescriptorNumber p n 9 (by decide)
  · exact getLsbD_setFileDescriptorNumber p n 10 (by decide)

theorem pteType_setProtection (p v : BitVec 32) (small : v ≤ 7) : pteType (setProtection p v) = pteType p := by
  apply pteType_eq
  · exact getLsbD_setProtection p v small 9 (by decide)
  · exact getLsbD_setProtection p v small 10 (by decide)

theorem fileDescriptorNumber_setFileDescriptorNumber (p : Mmpte) (n : BitVec 16) :
    (p.setFileDescriptorNumber n).fileDescriptorNumber = n := by
  apply BitVec.eq_of_getLsbD_eq
  intro i inside
  rw [fileDescriptorNumber, BitVec.getLsbD_setWidth, BitVec.getLsbD_ushiftRight,
    getLsbD_setFileDescriptorNumber p n (12 + i) (by omega), if_pos (by omega), decide_eq_true inside, Bool.true_and,
    Nat.add_sub_cancel_left]

theorem fileDescriptorNumber_setProtection (p v : BitVec 32) (small : v ≤ 7) :
    fileDescriptorNumber (setProtection p v) = fileDescriptorNumber p := by
  apply BitVec.eq_of_getLsbD_eq
  intro i inside
  rw [fileDescriptorNumber, fileDescriptorNumber, BitVec.getLsbD_setWidth, BitVec.getLsbD_setWidth,
    BitVec.getLsbD_ushiftRight, BitVec.getLsbD_ushiftRight, getLsbD_setProtection p v small (12 + i) (by omega), if_neg (by omega)]

theorem protection_setProtection (p v : BitVec 32) (small : v ≤ 7) : protection (setProtection p v) = v := by
  apply BitVec.eq_of_getLsbD_eq
  intro i inside
  rw [protection, BitVec.getLsbD_and, BitVec.getLsbD_ushiftRight]
  rcases Nat.lt_or_ge i 3 with low | high
  · rw [getLsbD_setProtection p v small (1 + i) (by omega), if_pos (by omega), Nat.add_sub_cancel_left]
    have on : (7 : BitVec 32).getLsbD i = true := by
      revert i
      decide
    rw [on, Bool.and_true]
  · rw [Bits.getLsbD_of_small (k := 3) (Nat.lt_succ_of_le (BitVec.le_def.mp small)) high,
      Bits.getLsbD_of_small (x := (7 : BitVec 32)) (k := 3) (by decide) high, Bool.and_false]

end Mmpte

inductive PageStatus
  | free
  | normal
  | pagedOut
  | trimmed
  | view
  | normalView
deriving DecidableEq, Repr

def pteTypePagedout : BitVec 32 := 1

def miIsAddressValidEx (p : Mmpte) : PageStatus :=
  if p.valid then
    if p.pteType = pteTypeView then .normalView else .normal
  else if p.pteType = pteTypeNormalOrNotmapped then .free
  else if p.pteType = pteTypeTrimmed then .trimmed
  else if p.pteType = pteTypePagedout then .pagedOut
  else .view

def mmIsAddressValidEx (s : MmState) (virtualAddress : BitVec 32) : PageStatus :=
  miIsAddressValidEx (s.pte (vpn virtualAddress))

def miStartAddress : ProcessorMode → BitVec 32
  | .kernelMode => mmCriticalArea
  | .driverMode => mmDriverArea
  | .unusedMode => 0
  | .userMode => mmUsermodeArea

def miEndAddress : ProcessorMode → BitVec 32
  | .kernelMode => mmCriticalAreaEnd
  | .driverMode => mmDriverAreaEnd
  | .unusedMode => 0
  | .userMode => mmUsermodeAreaEnd

/-- The check of a chosen range; after all its pages the address is the end of the range. -/
def rangeIsFree (s : MmState) (endAddress : BitVec 32) : Nat → BitVec 32 → Bool
  | 0, _ => true
  | left + 1, va =>
    if va < endAddress then
      mmIsAddressValidEx s va = .free && rangeIsFree s endAddress left (va + 0x1000)
    else true

def viewIsFree (s : MmState) (va : BitVec 32) (viewPages : Nat) : Bool :=
  mmIsAddressValidEx s va = .free &&
    (List.range' 1 (viewPages - 1)).all fun i => mmIsAddressValidEx s (pageAt va i) = .free

def findView (s : MmState) (viewPages : Nat) (endAddress : BitVec 32) : Nat → BitVec 32 → Option (BitVec 32)
  | 0, _ => none
  | left + 1, va =>
    if va < endAddress then
      if viewIsFree s va viewPages then some va else findView s viewPages endAddress left (va + 0x1000)
    else none

/-- A file view that is not mapped and not protected yet. -/
def reservedViewPte : Mmpte := (Mmpte.setPteType 0 pteTypeView).setFileDescriptorNumber 0 |>.setProtection 0

def changePtes (f : Mmpte → Mmpte) : Nat → Nat → MmState → Option MmState
  | _, 0, s => some s
  | i, left + 1, s => do
    let s ← s.writePte i (f (s.pte (BitVec.ofNat 20 i)))
    changePtes f (i + 1) left s

/-- The address found, or the status of the failure. -/
def miFindAndReserveVirtualAddressesForFileView (checked : Bool) (s : MmState) (startAddress : BitVec 32)
    (mappingMode : ProcessorMode) (viewPages : Nat) : Option (Except Status (BitVec 32) × MmState) :=
  if checked && mappingMode = .unusedMode then none
  else if startAddress ≠ 0 then
    if startAddress < miStartAddress mappingMode ∨ miEndAddress mappingMode ≤ startAddress then
      some (.error .invalidParameter, s)
    else if rangeIsFree s (pageAt startAddress viewPages) viewPages startAddress then
      some (.ok startAddress, s)
    else some (.error .invalidParameter, s)
  else
    match findView s viewPages (miEndAddress mappingMode) pageTableEntries (miStartAddress mappingMode) with
    | none => some (.error .insufficientResources, s)
    | some va =>
      (changePtes (fun _ => reservedViewPte) (vpn va).toNat viewPages s).map fun s => (.ok va, s)

def fileReadData : BitVec 32 := 0x8
def fileWriteData : BitVec 32 := 0x10

def miFileAccessToPageProtection (grantedAccess : BitVec 32) : BitVec 8 :=
  if grantedAccess &&& fileWriteData ≠ 0 then 3
  else if grantedAccess &&& fileReadData ≠ 0 then 1
  else 0

theorem miFileAccessToPageProtection_le (grantedAccess : BitVec 32) :
    miFileAccessToPageProtection grantedAccess ≤ 3 := by
  unfold miFileAccessToPageProtection
  split
  · decide
  · split <;> decide

/-- No file grants more than MM_READWRITE. -/
structure MappedFile where
  strongestProtection : BitVec 8
  targetMode : ProcessorMode
  goingAway : Bool := false
  granted : strongestProtection ≤ 3

/-- `object` is the outcome of creating the object, and `hMapping` is the new handle, if there is one. -/
def mmCreateFileMapping (cacheMap : Bool) (desiredAccess : BitVec 32) (mappingMode : ProcessorMode)
    (strongestProtection : BitVec 8) (object : Status) (hMapping : Option (BitVec 32)) :
    Except Status (BitVec 32 × MappedFile) :=
  if !cacheMap then .error .invalidParameter2
  else if weaker : miFileAccessToPageProtection desiredAccess < strongestProtection then .error .accessDenied
  else if !object.isSuccess then .error object
  else
    match hMapping with
    | none => .error .insufficientResources
    | some handle =>
      .ok (handle, {
        strongestProtection := strongestProtection
        targetMode := mappingMode
        granted := BitVec.le_trans (BitVec.not_lt.mp weaker) (miFileAccessToPageProtection_le desiredAccess) })

/-- HighPart and LowPart are one word, and QuadPart, which nothing here writes, is apart from it. -/
structure LargeInteger where
  part : BitVec 32
deriving DecidableEq, Repr

namespace LargeInteger

def setLowPart (_ : LargeInteger) (lowPart : BitVec 32) : LargeInteger := ⟨lowPart⟩
def setHighPart (_ : LargeInteger) (highPart : BitVec 32) : LargeInteger := ⟨highPart⟩

end LargeInteger

structure MappedView where
  startOffsetInFile : LargeInteger
  viewSize : BitVec 32
  startPte : Nat
  startVa : BitVec 32
  hMapping : BitVec 32
  protection : BitVec 8
deriving DecidableEq, Repr

namespace MappedView

def pages (v : MappedView) : Nat := (v.viewSize >>> 12).toNat

end MappedView

/-- The machine and the views in the view lists of the mappings. -/
structure MmViews where
  machine : MmState
  views : List MappedView

def miInitializeViewPages (s : MmState) (view : MappedView) : Option MmState :=
  changePtes (fun p =>
      (p.setFileDescriptorNumber (view.hMapping.setWidth 16)).setProtection (view.protection.setWidth 32))
    view.startPte view.pages s

def mmMaximumProtection : BitVec 8 := 7

/-- `mapping` is the object that the handle stands for, and `viewAllocated` tells whether the heap has room
for the view. -/
def mmMapViewOfFile (checked : Bool) (m : MmViews) (mapping : Except Status MappedFile)
    (hMapping offsetStart offsetStartHigh viewSize : BitVec 32) (protection : BitVec 8)
    (virtualAddress : BitVec 32) (viewAllocated : Bool) : Option (Status × BitVec 32 × MmViews) :=
  match mapping with
  | .error status => some (status, virtualAddress, m)
  | .ok file =>
    if file.goingAway then some (.deletePending, virtualAddress, m)
    else if file.strongestProtection < protection then some (.accessDenied, virtualAddress, m)
    else do
      let viewSize := alignUp viewSize
      let (found, s) ← miFindAndReserveVirtualAddressesForFileView checked m.machine virtualAddress
        file.targetMode (viewSize >>> 12).toNat
      match found with
      | .error status => some (status, virtualAddress, { m with machine := s })
      | .ok va =>
        if !viewAllocated then some (.insufficientResources, virtualAddress, { m with machine := s })
        else
          let view : MappedView := {
            startOffsetInFile := (LargeInteger.setLowPart ⟨0⟩ offsetStart).setHighPart offsetStartHigh
            viewSize := viewSize
            startPte := (vpn va).toNat
            startVa := va
            hMapping := hMapping
            protection := protection &&& mmMaximumProtection }
          let s ← miInitializeViewPages s view
          some (.success, va, { machine := s, views := m.views ++ [view] })

end Gr8os.Mm
