import Gr8os.Mm.Memory

/-! Memory descriptors: which pages they lock, and which bytes their pages hold. -/
namespace Gr8os.Mm

/-! Locking. -/

/-- The address is the same in every round. -/
def lockPages (virtualAddress : BitVec 32) : Nat → MmState → Option (List Nat × MmState)
  | 0, s => some ([], s)
  | left + 1, s =>
    let pfn := (s.pte (vpn virtualAddress)).pageFrameNumber
    if s.Mapped (mmPfnPpd s pfn) then do
      let i := (s.ppd (mmPfnPpd s pfn)).u1
      let entry := s.workingSet.wsPages i
      let (pfns, s) ← lockPages virtualAddress left
        { s with workingSet := s.workingSet.setEntry i { entry with lockedInWs := true } }
      some (pfn :: pfns, s)
    else none

def mmLockPages (s : MmState) (mmd : Mmd) : Option (MmState × Mmd) := do
  let (pfns, s) ← lockPages mmd.baseVirtual mmd.pfnList.length s
  some (s, { mmd with pfnList := pfns, flags := mmd.flags ||| mdlLocked })

/-- The frame that page `i` of a buffer is mapped to. -/
def Mmd.frame (mmd : Mmd) (s : MmState) (i : Nat) : Nat :=
  (s.pte (vpn (pageAt mmd.baseVirtual i))).pageFrameNumber

def Mmd.frames (mmd : Mmd) (s : MmState) : List Nat := (List.range mmd.pfnList.length).map (mmd.frame s)

/-- The slots of frames in the working set. -/
def MmState.slots (s : MmState) (pfns : List Nat) : List Nat := pfns.map fun pfn => (s.ppd (mmPfnPpd s pfn)).u1

def MmWorkingSet.setLocked (w : MmWorkingSet) (slots : List Nat) (locked : Bool) : MmWorkingSet :=
  { w with wsPages := fun j => if j ∈ slots then { w.wsPages j with lockedInWs := locked } else w.wsPages j }

/-- The pages of a buffer are mapped, and they are in the working set. -/
structure Mmd.InWorkingSet (mmd : Mmd) (s : MmState) : Prop where
  valid : ∀ i < mmd.pfnList.length, (s.pte (vpn (pageAt mmd.baseVirtual i))).valid = true
  described : ∀ i < mmd.pfnList.length, mmd.frame s i < s.physicalMemoryPages
  present : ∀ i < mmd.pfnList.length, Mm.InWorkingSet s (mmPfnPpd s (mmd.frame s i))

/-- Locking stores the frame of each page and marks their slots and no other one, which unlocking takes back. -/
structure LocksExactly (s : MmState) (mmd : Mmd) (t : MmState) (mmd' : Mmd) (u : MmState) : Prop where
  frames : mmd'.pfnList = mmd.frames s
  locked : t = { s with workingSet := s.workingSet.setLocked (s.slots (mmd.frames s)) true }
  unlocked : u = { t with workingSet := t.workingSet.setLocked (s.slots (mmd.frames s)) false }

theorem setLocked_nil (w : MmWorkingSet) (locked : Bool) : w.setLocked [] locked = w := by
  simp [MmWorkingSet.setLocked]

theorem setLocked_cons (w : MmWorkingSet) (i : Nat) (slots : List Nat) (locked : Bool) :
    (w.setEntry i { w.wsPages i with lockedInWs := locked }).setLocked slots locked = w.setLocked (i :: slots) locked := by
  simp only [MmWorkingSet.setLocked, MmWorkingSet.setEntry, MmWorkingSet.mk.injEq, true_and]
  funext j
  by_cases here : j = i
  · subst here
    simp
  · simp [here]

theorem lockPages_eq {va : BitVec 32} {n : Nat} {s : MmState}
    (described : 0 < n → (s.pte (vpn va)).pageFrameNumber < s.physicalMemoryPages) :
    lockPages va n s =
      let pfns := List.replicate n (s.pte (vpn va)).pageFrameNumber
      some (pfns, { s with workingSet := s.workingSet.setLocked (s.slots pfns) true }) := by
  induction n generalizing s with
  | zero => simp [lockPages, MmState.slots, setLocked_nil]
  | succ n ih =>
    have mapped := (mapped_mmPfnPpd s _).mpr (described (Nat.succ_pos n))
    let i := (s.ppd (mmPfnPpd s (s.pte (vpn va)).pageFrameNumber)).u1
    let entry := s.workingSet.wsPages i
    have rest := ih (s := { s with workingSet := s.workingSet.setEntry i { entry with lockedInWs := true } })
      fun _ => described (Nat.succ_pos n)
    rw [lockPages]
    dsimp only
    rw [if_pos mapped, rest]
    simp only [Option.bind_eq_bind, Option.bind_some, List.replicate_succ, entry]
    rw [setLocked_cons]
    rfl

theorem unlockPages_eq (pfns : List Nat) (s : MmState) :
    unlockPages pfns s = some { s with workingSet := s.workingSet.setLocked (s.slots pfns) false } := by
  induction pfns generalizing s with
  | nil => simp [unlockPages, MmState.slots, setLocked_nil]
  | cons pfn pfns ih =>
    rw [unlockPages, ih, setLocked_cons]
    rfl

theorem lock_pages_iff {s : MmState} {mmd : Mmd} (mapped : mmd.InWorkingSet s) :
    (∃ t mmd' u mmd'', mmLockPages s mmd = some (t, mmd') ∧ mmUnlockPages t mmd' = some (u, mmd'') ∧
      LocksExactly s mmd t mmd' u) ↔
      ∀ i < mmd.pfnList.length, mmd.frame s i = mmd.frame s 0 := by
  have first : mmd.frame s 0 = (s.pte (vpn mmd.baseVirtual)).pageFrameNumber := by
    rw [Mmd.frame, pageAt_zero]
  have described : 0 < mmd.pfnList.length → (s.pte (vpn mmd.baseVirtual)).pageFrameNumber < s.physicalMemoryPages :=
    fun pos => first ▸ mapped.described 0 pos
  have locks := lockPages_eq described
  rw [← first] at locks
  constructor
  · rintro ⟨t, mmd', u, mmd'', code, -, exact⟩ i less
    rw [mmLockPages, locks] at code
    cases Option.some.inj code
    have frames : List.replicate mmd.pfnList.length (mmd.frame s 0) = mmd.frames s := exact.frames
    have member : mmd.frame s i ∈ mmd.frames s := List.mem_map_of_mem (List.mem_range.mpr less)
    rw [← frames] at member
    exact List.eq_of_mem_replicate member
  · intro same
    have frames : List.replicate mmd.pfnList.length (mmd.frame s 0) = mmd.frames s := by
      symm
      rw [List.eq_replicate_iff]
      refine ⟨by simp [Mmd.frames], ?_⟩
      intro f member
      obtain ⟨i, less, rfl⟩ := List.mem_map.mp member
      exact same i (List.mem_range.mp less)
    rw [frames] at locks
    refine ⟨_, _, _, _, by rw [mmLockPages, locks]; rfl, by rw [mmUnlockPages, unlockPages_eq]; rfl, rfl, rfl, rfl⟩

/-- Two pages of a buffer, mapped and in the working set, with `pfn` the frame of the second. -/
def twoBufferPages (pfn : Nat) : MmState where
  physicalMemoryPages := 2
  mmPpdDatabase := 1200
  ppd := fun p => {
    u1 := if p = 1212 then 1 else 0
    u2 := 0
    pageLocation := .activeAndValid
    modified := false
    belongsToSystemWorkingSet := true
    shareCount := 1 }
  pageListHead := fun _ => 0
  pte := fun i => if i = 0x80000 then validKernelPte 0 else if i = 0x80001 then validKernelPte pfn else 0
  workingSet := {
    totalPageCount := 2
    wsPages := fun i =>
      if i = 0 then { pageDescriptor := 1200, present := true }
      else if i = 1 then { pageDescriptor := 1212, present := true }
      else {} }

def twoPageBuffer : Mmd := mmAllocateMmd 0x80000000 0x2000

theorem twoPages_present (pfn : Nat) (inside : pfn < 2) : twoPageBuffer.InWorkingSet (twoBufferPages pfn) := by
  obtain rfl | rfl : pfn = 0 ∨ pfn = 1 := by omega
  · exact ⟨by decide, by decide, by decide⟩
  · exact ⟨by decide, by decide, by decide⟩

/-- One frame at two addresses. -/
theorem sharedFrame_locked : ∃ t mmd' u mmd'', mmLockPages (twoBufferPages 0) twoPageBuffer = some (t, mmd') ∧
    mmUnlockPages t mmd' = some (u, mmd'') ∧ LocksExactly (twoBufferPages 0) twoPageBuffer t mmd' u :=
  (lock_pages_iff (twoPages_present 0 (by decide))).mpr (by decide)

theorem second_page_unlocked : twoPageBuffer.InWorkingSet (twoBufferPages 1) ∧
    ¬ ∃ t mmd' u mmd'', mmLockPages (twoBufferPages 1) twoPageBuffer = some (t, mmd') ∧
      mmUnlockPages t mmd' = some (u, mmd'') ∧ LocksExactly (twoBufferPages 1) twoPageBuffer t mmd' u := by
  refine ⟨twoPages_present 1 (by decide), ?_⟩
  rintro ⟨t, mmd', u, mmd'', code, -, exact⟩
  have stored : (mmLockPages (twoBufferPages 1) twoPageBuffer).map (fun r => r.2.pfnList) = some [0, 0] := by decide
  have frames : twoPageBuffer.frames (twoBufferPages 1) = [0, 1] := by decide
  rw [code, Option.map_some, exact.frames, frames] at stored
  exact absurd (Option.some.inj stored) (by decide)

/-! Covering. -/

/-- Byte `k` from an address on lies in page `i` of a descriptor. -/
def Mmd.Holds (mmd : Mmd) (virtualAddress : BitVec 32) (k i : Nat) : Prop :=
  (virtualAddress.toNat + k) / 4096 = mmd.baseVirtual.toNat / 4096 + i

/-- Byte `k` from `x` on is in the frame, and at the place in it, where byte `k` from `va` on was. -/
def SameByte (s t : MmState) (va x : BitVec 32) (k : Nat) : Prop :=
  t.pte (BitVec.ofNat 20 ((x.toNat + k) / 4096)) =
      validKernelPte (s.pte (BitVec.ofNat 20 ((va.toNat + k) / 4096))).pageFrameNumber ∧
    (x.toNat + k) % 4096 = (va.toNat + k) % 4096

/-- The pages of a descriptor are those its buffer touches, and a mapping of them maps the buffer. -/
structure CoversBuffer (virtualAddress size : BitVec 32) : Prop where
  covers : ∀ k < size.toNat, ∃ i < (mmAllocateMmd virtualAddress size).pfnList.length,
    (mmAllocateMmd virtualAddress size).Holds virtualAddress k i
  touches : ∀ i < (mmAllocateMmd virtualAddress size).pfnList.length, ∃ k < size.toNat,
    (mmAllocateMmd virtualAddress size).Holds virtualAddress k i
  maps : ∀ heap s mmd mode isImage add r mmd',
    mmBuildMmdForNonpagedSpace s (mmAllocateMmd virtualAddress size) = some mmd →
    mmMapLockedPages heap s mmd mode isImage add = some (r, mmd') → r.address ≠ 0 →
    ∀ k < size.toNat, SameByte s r.state virtualAddress r.address k

theorem mapPages_here {heap : Nat → Bool} {add : Bool} {mode : ProcessorMode} {i : Nat} {pfns : List Nat}
    {s t : MmState} {replaced : List Mmpte} (h : mapPages heap add mode i pfns s = some (replaced, t)) {j : Nat}
    (less : j < pfns.length) : t.pte (BitVec.ofNat 20 (i + j)) = validKernelPte pfns[j] := by
  induction pfns generalizing i s replaced j with
  | nil => exact absurd less (Nat.not_lt_zero j)
  | cons pfn pfns ih =>
    cases j with
    | zero => exact mapPages_first h
    | succ j =>
      simp only [mapPages, Option.bind_eq_bind, Option.bind_eq_some_iff] at h
      obtain ⟨s₁, first, ⟨old, t'⟩, rest, last⟩ := h
      cases Option.some.inj last
      have later := ih rest (Nat.lt_of_succ_lt_succ less)
      rwa [Nat.add_assoc, Nat.add_comm 1 j] at later

theorem pageAt_aligned {start : BitVec 32} (aligned : start.toNat % 4096 = 0) (k : Nat) :
    (pageAt start k).toNat % 4096 = 0 := by
  have pageSize : (0x1000 : BitVec 32).toNat = 0x1000 := rfl
  simp only [pageAt, BitVec.toNat_add, BitVec.toNat_mul, BitVec.toNat_ofNat, pageSize]
  omega

theorem lockedPagesArea_aligned {mode : ProcessorMode} {isImage : Bool} {start finish : BitVec 32}
    (area : lockedPagesArea mode isImage = some (start, finish)) : start.toNat % 4096 = 0 := by
  cases mode <;> cases isImage <;> simp only [lockedPagesArea, reduceCtorEq, Bool.false_eq_true, if_true, if_false,
    Option.some.injEq, Prod.mk.injEq] at area
  all_goals
    obtain ⟨rfl, -⟩ := area
    decide

/-- The frames of a buffer are mapped from one address on, and the place in the page is added back. -/
theorem mapped_buffer {heap : Nat → Bool} {s : MmState} {mmd mmd' : Mmd} {mode : ProcessorMode} {isImage add : Bool}
    {r : MapResult} {va size : BitVec 32} (built : mmBuildMmdForNonpagedSpace s (mmAllocateMmd va size) = some mmd)
    (mapped : mmMapLockedPages heap s mmd mode isImage add = some (r, mmd')) (given : r.address ≠ 0) {k : Nat}
    (within : va.toNat % 4096 + k < 4096 * pageCountOf size) : SameByte s r.state va r.address k := by
  have base : (vpn (alignDown va)).toNat = va.toNat / 4096 := by
    have down := toNat_alignDown va
    have := va.isLt
    simp only [vpn, BitVec.toNat_setWidth, BitVec.toNat_ushiftRight, Nat.shiftRight_eq_div_pow]
    omega
  have pageSize : (0x1000 : BitVec 32).toNat = 0x1000 := rfl
  simp only [mmBuildMmdForNonpagedSpace, mmAllocateMmd, List.length_replicate, base] at built
  split at built
  case isFalse => exact absurd built (by simp)
  case isTrue inTable =>
    cases Option.some.inj built
    obtain ⟨start, finish, area, ⟨-, same⟩ | ⟨virtual, found, pages, address⟩⟩ := mmMapLockedPages_inv mapped
    · exact absurd (congrArg MapResult.address same) given
    · obtain ⟨k₀, -, rfl, -⟩ := found
      have aligned := pageAt_aligned (lockedPagesArea_aligned area) k₀
      generalize pageAt start k₀ = virtual at aligned pages address
      have bound := virtual.isLt
      have first : (vpn virtual).toNat = virtual.toNat / 4096 := by
        simp only [vpn, BitVec.toNat_setWidth, BitVec.toNat_ushiftRight, Nat.shiftRight_eq_div_pow]
        omega
      have here : r.address.toNat = virtual.toNat + va.toNat % 4096 := by
        rw [address, BitVec.toNat_add, BitVec.toNat_umod, pageSize]
        omega
      let j := (va.toNat % 4096 + k) / 4096
      have less : j < (clearedFrames s (va.toNat / 4096) (pageCountOf size)).length := by
        simp only [clearedFrames, List.length_map, List.length_range', j]
        omega
      have mappedTo : (r.address.toNat + k) / 4096 = (vpn virtual).toNat + j := by
        rw [here, first]
        omega
      have mappedFrom : (va.toNat + k) / 4096 = va.toNat / 4096 + j := by omega
      constructor
      · rw [mappedTo, mappedFrom, mapPages_here pages less]
        simp [clearedFrames]
      · omega

/-- The part of the buffer on its first page leaves room for the part on its last one. -/
theorem mmd_covers_iff {virtualAddress size : BitVec 32} (some : 0 < size.toNat) :
    CoversBuffer virtualAddress size ↔
      virtualAddress.toNat % 4096 + (size.toNat - 1) % 4096 < 4096 ∧ size ≤ 0xFFFFF000 := by
  have rounded := pageCountOf_eq size
  have bound := size.isLt
  have down := toNat_alignDown virtualAddress
  have largest : size ≤ 0xFFFFF000 ↔ size.toNat ≤ 0xFFFFF000 := BitVec.le_def
  have length : (mmAllocateMmd virtualAddress size).pfnList.length = pageCountOf size := List.length_replicate
  have base : (mmAllocateMmd virtualAddress size).baseVirtual.toNat / 4096 = virtualAddress.toNat / 4096 := by
    change (alignDown virtualAddress).toNat / 4096 = _
    omega
  rw [largest]
  simp only [pagesOf] at rounded
  constructor
  · intro covers
    obtain ⟨i, less, last⟩ := covers.covers (size.toNat - 1) (by omega)
    rw [Mmd.Holds, base] at last
    rw [length] at less
    omega
  · rintro ⟨fits, large⟩
    constructor
    · intro k less
      refine ⟨(virtualAddress.toNat % 4096 + k) / 4096, by rw [length]; omega, ?_⟩
      rw [Mmd.Holds, base]
      omega
    · intro i less
      rw [length] at less
      refine ⟨4096 * i - virtualAddress.toNat % 4096, by omega, ?_⟩
      rw [Mmd.Holds, base]
      omega
    · intro heap s mmd mode isImage add r mmd' built mapped given k less
      exact mapped_buffer built mapped given (by omega)

/-- A buffer that ends with its page. -/
theorem pageEnd_covered : CoversBuffer 0x80000800 0x800 :=
  (mmd_covers_iff (by decide)).mpr (by decide)

/-- Two bytes, one on each side of a page boundary. -/
theorem second_page_uncovered : (mmAllocateMmd 0x80000FFF 2).pfnList.length = 1 ∧ ¬ CoversBuffer 0x80000FFF 2 := by
  have length : (mmAllocateMmd 0x80000FFF 2).pfnList.length = 1 := by decide
  refine ⟨length, ?_⟩
  intro covers
  obtain ⟨i, less, last⟩ := covers.covers 1 (by decide)
  rw [length] at less
  have first : i = 0 := by omega
  subst first
  revert last
  unfold Mmd.Holds
  decide

end Gr8os.Mm
