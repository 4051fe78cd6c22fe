import Gr8os.Lib.Partial
import Gr8os.Mm.PageRuns
import Gr8os.Mm.WorkingSet

/-! Kernel memory: physical pages allocated and mapped in one call, unmapped and freed in another. -/
namespace Gr8os.Mm

open Partial

def pageCountOf (size : BitVec 32) : Nat := (alignUp size >>> 12).toNat

/-- `arrayAllocated` and `mmdAllocated` tell whether the heap has room; a descriptor is used unchecked. -/
def mmAllocateMemory (checked : Bool) (heap : Nat → Bool) (s : MmState) (memorySize : BitVec 32)
    (arrayAllocated mmdAllocated : Bool) : Option (BitVec 32 × MmState) := do
  let (status, mmd, s) ← mmAllocatePhysicalPages checked s (pageCountOf memorySize) arrayAllocated mmdAllocated
  if !status.isSuccess then some (0, s)
  else
    let mmd ← mmd
    let (r, _) ← mmMapLockedPages heap s mmd .kernelMode false false
    if checked && r.address = 0 then none else some (r.address, r.state)

def mmAllocateMmd (virtualAddress size : BitVec 32) : Mmd where
  flags := 0
  pfnList := List.replicate (pageCountOf size) 0
  baseVirtual := alignDown virtualAddress
  offset := virtualAddress % 0x1000

def mmBuildMmdForNonpagedSpace (s : MmState) (mmd : Mmd) : Option Mmd :=
  let i := (vpn mmd.baseVirtual).toNat
  if i + mmd.pfnList.length ≤ pageTableEntries then
    some { mmd with pfnList := clearedFrames s i mmd.pfnList.length }
  else none

def unlockPages : List Nat → MmState → Option MmState
  | [], s => some s
  | pfn :: pfns, s =>
    let i := (s.ppd (mmPfnPpd s pfn)).u1
    let entry := s.workingSet.wsPages i
    unlockPages pfns { s with workingSet := s.workingSet.setEntry i { entry with lockedInWs := false } }

def mmUnlockPages (s : MmState) (mmd : Mmd) : Option (MmState × Mmd) := do
  let s ← unlockPages mmd.pfnList s
  some (s, { mmd with flags := mmd.flags &&& ~~~mdlLocked })

def mmFreeMmd (checked : Bool) (s : MmState) (mmd : Mmd) : Option MmState := do
  let (s, mmd) ← if mmd.flags &&& mdlMapped ≠ 0 then mmUnmapLockedPages checked s mmd else some (s, mmd)
  let (s, mmd) ← if mmd.flags &&& mdlLocked ≠ 0 then mmUnlockPages s mmd else some (s, mmd)
  let (_, s) ← if mmd.flags &&& mdlAllocated ≠ 0 then mmFreePhysicalPages checked s mmd else some (mmd, s)
  some s

def mmFreeMemory (checked : Bool) (s : MmState) (ptr memorySize : BitVec 32) (mmdAllocated : Bool) :
    Option MmState := do
  if !mmdAllocated then none
  else
    let mmd ← mmBuildMmdForNonpagedSpace s (mmAllocateMmd ptr memorySize)
    let mmd := { mmd with flags := mdlAllocated ||| mdlMapped }
    let (s, mmd) ← mmUnmapLockedPages checked s mmd
    let (mmd, s) ← mmFreePhysicalPages checked s mmd
    mmFreeMmd checked s mmd

/-! Moving a page between the lists touches no PTE. -/

theorem kept_pte (pte : BitVec 20 → Mmpte) : Kept (·.pte = pte) where
  update _ same := ⟨fun h => (update_inv h).pte.trans same⟩
  setHead _ _ same := same

theorem update_pte {s u : MmState} (same : u.pte = s.pte) (p : Nat) (f : Mmppd → Mmppd) :
    Ends (u.update p f) (·.pte = s.pte) := (kept_pte s.pte).update f same

theorem miChangePageLocation_pte {checked : Bool} {s u : MmState} (same : u.pte = s.pte) (p : Nat)
    (location : PageLocation) : Ends (miChangePageLocation checked u p location) (·.pte = s.pte) :=
  (kept_pte s.pte).miChangePageLocation same p location

theorem changeAll_pte {checked : Bool} {s u : MmState} (same : u.pte = s.pte) (location : PageLocation)
    (pfns : List Nat) : Ends (changeAll checked location pfns u) (·.pte = s.pte) :=
  (kept_pte s.pte).changeAll same location pfns

theorem takePages_pte {checked : Bool} {s u : MmState} (same : u.pte = s.pte) (left ppd : Nat)
    (pages : List Nat) : Ends (takePages checked left ppd pages u) (·.2.pte = s.pte) := by
  induction left generalizing u ppd pages with
  | zero =>
    cases ppd with
    | zero => exact .some same
    | succ ppd => exact .none
  | succ left ih =>
    cases ppd with
    | zero => exact .some same
    | succ ppd =>
      unfold takePages
      apply Ends.bind (miChangePageLocation_pte same ..)
      intro v same
      apply Ends.ite
      · intro _
        exact .some same
      · intro _
        exact ih same ..

theorem mmAllocatePhysicalPages_pte {checked : Bool} {s : MmState} {n : Nat} {a m : Bool} :
    Ends (mmAllocatePhysicalPages checked s n a m) (·.2.2.pte = s.pte) := by
  unfold mmAllocatePhysicalPages
  apply Ends.ite
  · intro _
    exact .some rfl
  · intro _
    apply Ends.ite
    · intro _
      exact .some rfl
    · intro _
      apply Ends.bind (takePages_pte rfl _ _ [])
      intro r taken
      dsimp only
      apply Ends.ite
      · intro _
        exact .bind (takePages_pte taken ..) fun r same => .some same
      · intro _
        exact .some taken

/-- A request that succeeds has as many pages as it asks for. -/
theorem mmAllocatePhysicalPages_length {checked : Bool} {s : MmState} {n : Nat} {a m : Bool} :
    Ends (mmAllocatePhysicalPages checked s n a m) fun r =>
      r.1.isSuccess = true → ∀ mmd, r.2.1 = some mmd → n ≤ mmd.pfnList.length ∧ mmd.offset = 0 := by
  have refused : ¬ Status.insufficientResources.isSuccess = true := by decide
  have finished (pages : List Nat) (u : MmState) :
      let status := if pages.length < n then Status.partialCompletion else .success
      status.isSuccess = true →
        ∀ mmd, (if m then some { flags := mdlAllocated, pfnList := pages } else none : Option Mmd) = some mmd →
          n ≤ mmd.pfnList.length ∧ mmd.offset = 0 := by
    intro status success mmd made
    cases m with
    | false => exact absurd made (by simp)
    | true =>
      cases Option.some.inj made
      rcases Nat.lt_or_ge pages.length n with short | enough
      · simp only [status, if_pos short] at success
        exact absurd success (by decide)
      · exact ⟨enough, rfl⟩
  unfold mmAllocatePhysicalPages
  apply Ends.ite
  · intro _
    exact .some fun success => absurd success refused
  · intro _
    apply Ends.ite
    · intro _
      exact .some fun success => absurd success refused
    · intro _
      apply Ends.bind (takePages_pte rfl _ _ [])
      intro r _
      dsimp only
      apply Ends.ite
      · intro _
        exact .bind (takePages_pte rfl ..) fun r _ => .some (finished r.1 r.2)
      · intro _
        exact .some (finished r.1 r.2)

theorem mapPages_outside {heap : Nat → Bool} {add : Bool} {mode : ProcessorMode} {i : Nat} {pfns : List Nat}
    {s t : MmState} {replaced : List Mmpte} (h : mapPages heap add mode i pfns s = some (replaced, t))
    {k : Nat} (inTable : k < pageTableEntries) (outside : k < i ∨ i + pfns.length ≤ k) :
    t.pte (BitVec.ofNat 20 k) = s.pte (BitVec.ofNat 20 k) := by
  induction pfns generalizing i s replaced with
  | nil =>
    cases Option.some.inj h
    rfl
  | cons pfn pfns ih =>
    simp only [mapPages, Option.bind_eq_bind, Option.bind_eq_some_iff] at h
    obtain ⟨s₁, first, ⟨old, t'⟩, rest, last⟩ := h
    cases Option.some.inj last
    rw [List.length_cons] at outside
    have step := mapPage_inv first
    rw [ih rest (by omega), step.pte_other (ofNat_ne step.inTable inTable (by omega))]

theorem mapPages_first {heap : Nat → Bool} {add : Bool} {mode : ProcessorMode} {i pfn : Nat} {pfns : List Nat}
    {s t : MmState} {replaced : List Mmpte}
    (h : mapPages heap add mode i (pfn :: pfns) s = some (replaced, t)) :
    t.pte (BitVec.ofNat 20 i) = validKernelPte pfn := by
  simp only [mapPages, Option.bind_eq_bind, Option.bind_eq_some_iff] at h
  obtain ⟨s₁, first, ⟨old, t'⟩, rest, last⟩ := h
  cases Option.some.inj last
  have step := mapPage_inv first
  rw [mapPages_outside rest step.inTable (by omega), step.pte]
  exact if_pos rfl

theorem unmapPages_outside {checked : Bool} {i n : Nat} {s t : MmState}
    (h : unmapPages checked i n s = some t) {k : Nat} (inTable : k < pageTableEntries)
    (outside : k < i ∨ i + n ≤ k) : t.pte (BitVec.ofNat 20 k) = s.pte (BitVec.ofNat 20 k) := by
  induction n generalizing i s with
  | zero =>
    cases Option.some.inj h
    rfl
  | succ n ih =>
    simp only [unmapPages, Option.bind_eq_bind, Option.bind_eq_some_iff] at h
    obtain ⟨s₁, first, rest⟩ := h
    have step := unmapPage_inv first
    rw [ih rest (by omega), step.pte_other (ofNat_ne step.inTable inTable (by omega))]

/-- The pages that are free or zeroed. -/
def available (s : MmState) (pfn : Nat) : Prop :=
  (s.ppd (mmPfnPpd s pfn)).pageLocation = .list .freePageList ∨
    (s.ppd (mmPfnPpd s pfn)).pageLocation = .list .zeroedPageList

/-- Freeing what was allocated at `ptr` brings back every PTE, every share count and the pages to
allocate from, and in between only the PTEs of the allocation had changed. -/
structure RoundTrip (checked : Bool) (s between : MmState) (ptr size : BitVec 32) (mmdAllocated : Bool) :
    Prop where
  freed : ∃ after, mmFreeMemory checked between ptr size mmdAllocated = some after ∧
    after.pte = s.pte ∧
    (∀ f < s.physicalMemoryPages, shareCount after f = shareCount s f) ∧
    ∀ f < s.physicalMemoryPages, available after f ↔ available s f
  inside : ∀ k < pageTableEntries, k < (vpn ptr).toNat ∨ (vpn ptr).toNat + pageCountOf size ≤ k →
    between.pte (BitVec.ofNat 20 k) = s.pte (BitVec.ofNat 20 k)

theorem mmAllocatePhysicalPages_zero {checked : Bool} {s : MmState} {a m : Bool} :
    Ends (mmAllocatePhysicalPages checked s 0 a m) fun r =>
      r.2.2 = s ∧ ∀ mmd, r.2.1 = some mmd → mmd.pfnList = [] := by
  unfold mmAllocatePhysicalPages
  apply Ends.ite
  · intro _
    exact .some ⟨rfl, by simp⟩
  · intro _
    apply Ends.ite
    · intro _
      exact .some ⟨rfl, by simp⟩
    · intro _
      have nothing : Ends (takePages checked 0 (s.pageListHead .freePageList) [] s) (· = ([], s)) := by
        cases s.pageListHead .freePageList with
        | zero => exact .some rfl
        | succ ppd => exact .none
      apply Ends.bind nothing
      rintro _ rfl
      apply Ends.ite
      · intro short
        exact absurd short (by simp)
      · intro _
        apply Ends.some
        refine ⟨rfl, ?_⟩
        intro mmd made
        cases m with
        | false => exact absurd made (by simp)
        | true =>
          cases Option.some.inj made
          rfl

theorem mmFreeMmd_cleared {checked : Bool} {s : MmState} {mmd : Mmd} (clear : mmd.flags = 0) :
    mmFreeMmd checked s mmd = some s := by
  simp [mmFreeMmd, clear]

/-- What freeing comes to: the descriptor that is made from the address has no mapped address, so that the
pages at address 0 are unmapped. -/
theorem mmFreeMemory_eq (checked : Bool) (s : MmState) (ptr size : BitVec 32) :
    mmFreeMemory checked s ptr size true =
      if (vpn (alignDown ptr)).toNat + pageCountOf size ≤ pageTableEntries then
        (unmapPages checked 0 (pageCountOf size) s).bind fun u =>
          changeAll checked (.list .freePageList)
            (clearedFrames s (vpn (alignDown ptr)).toNat (pageCountOf size)) u
      else none := by
  have first : (vpn (alignDown 0)).toNat = 0 := by decide
  have length : (clearedFrames s (vpn (alignDown ptr)).toNat (pageCountOf size)).length = pageCountOf size := by
    simp [clearedFrames]
  simp only [mmFreeMemory, mmAllocateMmd, mmBuildMmdForNonpagedSpace, List.length_replicate,
    Option.bind_eq_bind, Bool.not_true, Bool.false_eq_true, if_false]
  split
  · simp only [Option.bind_some, mmUnmapLockedPages, miUnmapPhysicalPages, first, length,
      Option.bind_eq_bind, Option.bind_assoc]
    congr 1
    funext u
    simp only [mmFreePhysicalPages, Option.bind_eq_bind, Option.bind_assoc, Option.bind_some]
    have unflagged (v : MmState) (pfns : List Nat) (base offset : BitVec 32) :
        mmFreeMmd checked v
          { flags := (mdlAllocated ||| mdlMapped) &&& ~~~mdlMapped &&& ~~~mdlAllocated
            pfnList := pfns
            baseVirtual := base
            mappedVirtual := 0
            offset := offset } = some v :=
      mmFreeMmd_cleared
        (by decide : (mdlAllocated ||| mdlMapped) &&& ~~~mdlMapped &&& ~~~mdlAllocated = 0)
    simp only [unflagged, Option.bind_fun_some]
  · rfl

theorem mmFreeMemory_pte {checked : Bool} {s t : MmState} {ptr size : BitVec 32}
    (h : mmFreeMemory checked s ptr size true = some t) {k : Nat} (inTable : k < pageTableEntries)
    (outside : pageCountOf size ≤ k) : t.pte (BitVec.ofNat 20 k) = s.pte (BitVec.ofNat 20 k) := by
  rw [mmFreeMemory_eq] at h
  split at h
  · obtain ⟨u, unmapped, freed⟩ := Option.bind_eq_some_iff.mp h
    rw [(changeAll_pte rfl _ _).of_eq freed]
    exact unmapPages_outside unmapped inTable (.inr (by omega))
  · exact absurd h (by simp)

theorem mmFreeMemory_nothing {checked : Bool} {s : MmState} {ptr size : BitVec 32}
    (empty : pageCountOf size = 0) : mmFreeMemory checked s ptr size true = some s := by
  have inTable : (vpn (alignDown ptr)).toNat + 0 ≤ pageTableEntries := by
    have := (vpn (alignDown ptr)).isLt
    unfold pageTableEntries
    omega
  rw [mmFreeMemory_eq, empty, if_pos inTable]
  rfl

theorem mmAllocateMemory_inv {checked : Bool} {heap : Nat → Bool} {s t : MmState} {size ptr : BitVec 32}
    {a m : Bool} (h : mmAllocateMemory checked heap s size a m = some (ptr, t)) (given : ptr ≠ 0) :
    ∃ status mmd u replaced,
      mmAllocatePhysicalPages checked s (pageCountOf size) a m = some (status, some mmd, u) ∧
        pageCountOf size ≤ mmd.pfnList.length ∧
        FirstFree u mmCriticalArea (pagesBetween mmCriticalArea mmCriticalAreaEnd) ptr ∧
        mapPages heap false .kernelMode (vpn ptr).toNat mmd.pfnList u = some (replaced, t) := by
  simp only [mmAllocateMemory, Option.bind_eq_bind, Option.bind_eq_some_iff] at h
  obtain ⟨⟨status, mmd?, u⟩, physical, h⟩ := h
  have enough := mmAllocatePhysicalPages_length.of_eq physical
  cases success : status.isSuccess with
  | false =>
    simp only [success, Bool.not_false, if_true, Option.some.injEq, Prod.mk.injEq] at h
    exact absurd h.1.symm given
  | true =>
    simp only [success, Bool.not_true, Bool.false_eq_true, if_false, Option.bind_eq_some_iff] at h
    obtain ⟨mmd, rfl, ⟨r, mmd'⟩, mapped, h⟩ := h
    obtain ⟨length, offset⟩ := enough success mmd rfl
    obtain ⟨start, finish, area, ⟨-, rfl⟩ | ⟨virtual, found, pages, address⟩⟩ := mmMapLockedPages_inv mapped
    · dsimp only at h
      split at h
      · exact absurd h (by simp)
      · simp only [Option.some.injEq, Prod.mk.injEq] at h
        exact absurd h.1.symm given
    · cases area
      split at h
      · exact absurd h (by simp)
      · simp only [Option.some.injEq, Prod.mk.injEq] at h
        obtain ⟨same, rfl⟩ := h
        have here : ptr = virtual := by simp [← same, address, offset]
        cases here
        exact ⟨status, mmd, u, r.replaced, physical, length, found, pages⟩

theorem toNat_and_low (x : BitVec 32) : (x &&& 0xFFF).toNat = x.toNat % 4096 := by
  rw [BitVec.toNat_and]
  exact Nat.and_two_pow_sub_one_eq_mod x.toNat 12

theorem toNat_alignDown (x : BitVec 32) : (alignDown x).toNat = x.toNat / 4096 * 4096 := by
  have split : alignDown x = (x >>> 12) <<< 12 := by
    rw [alignDown, BitVec.shiftLeft_ushiftRight]
    rfl
  rw [split]
  simp only [BitVec.toNat_shiftLeft, BitVec.toNat_ushiftRight, Nat.shiftLeft_eq, Nat.shiftRight_eq_div_pow]
  have := x.isLt
  omega

theorem toNat_alignUp (x : BitVec 32) : (alignUp x).toNat = (x.toNat + 4095) / 4096 * 4096 % 2 ^ 32 := by
  have low := toNat_and_low x
  have down := toNat_alignDown x
  have bound := x.isLt
  have pageSize : (0x1000 : BitVec 32).toNat = 0x1000 := rfl
  have zero : (0 : BitVec 32).toNat = 0 := rfl
  rw [alignUp]
  split
  case isTrue odd =>
    rw [ne_eq, ← BitVec.toNat_inj, low, zero] at odd
    rw [BitVec.toNat_add, down, pageSize]
    omega
  case isFalse even =>
    rw [ne_eq, ← BitVec.toNat_inj, low, zero] at even
    omega

theorem alignUp_aligned (x : BitVec 32) : (alignUp x).toNat % 4096 = 0 := by
  rw [toNat_alignUp]
  omega

/-- The pages that a request asks for. -/
def pagesOf (viewSize : BitVec 32) : Nat := (viewSize.toNat + 0xFFF) / 0x1000

theorem pageCountOf_eq (viewSize : BitVec 32) : pageCountOf viewSize = pagesOf viewSize % 2 ^ 20 := by
  rw [pageCountOf, BitVec.toNat_ushiftRight, Nat.shiftRight_eq_div_pow, toNat_alignUp, pagesOf]
  omega

theorem pageCountOf_eq_zero_iff (size : BitVec 32) : pageCountOf size = 0 ↔ alignUp size = 0 := by
  have aligned := alignUp_aligned size
  have zero : (0 : BitVec 32).toNat = 0 := rfl
  rw [pageCountOf, BitVec.toNat_ushiftRight, Nat.shiftRight_eq_div_pow, ← BitVec.toNat_inj, zero]
  omega

theorem validKernelPte_not_free (pfn : Nat) : mmPteIsFree (validKernelPte pfn) = false := by
  simp [mmPteIsFree, validKernelPte_valid]

/-- The first PTE of an allocation that has a page is still valid after the memory is freed: the area of
the allocation lies far above the pages that are unmapped in its place. -/
theorem first_page_left {checked : Bool} {heap : Nat → Bool} {u between after : MmState} {ptr size : BitVec 32}
    {pfn : Nat} {pfns : List Nat} {replaced : List Mmpte}
    (found : FirstFree u mmCriticalArea (pagesBetween mmCriticalArea mmCriticalAreaEnd) ptr)
    (pages : mapPages heap false .kernelMode (vpn ptr).toNat (pfn :: pfns) u = some (replaced, between))
    (length : pageCountOf size ≤ pfns.length + 1)
    (freed : mmFreeMemory checked between ptr size true = some after) :
    after.pte (vpn ptr) = validKernelPte pfn := by
  have inTable := mapPages_inTable pages pfns.length (by simp)
  have first := mapPages_first pages
  obtain ⟨k, less, rfl, -⟩ := found
  have index := vpn_pageAt mmCriticalArea k
  have base : mmCriticalArea.toNat / 4096 = 0xFF000 := by decide
  have room : pagesBetween mmCriticalArea mmCriticalAreaEnd = 0xFFD := by decide
  rw [room] at less
  rw [base] at index
  unfold pageTableEntries at inTable
  have here : (vpn (pageAt mmCriticalArea k)).toNat < pageTableEntries := BitVec.isLt _
  have kept := mmFreeMemory_pte freed here (by omega)
  rw [first, BitVec.ofNat_toNat, BitVec.setWidth_eq] at kept
  exact kept

/-- Memory that has a page does not come back: its PTEs stay where they are and the pages at address 0 are
unmapped in their place. -/
theorem memory_round_trip_iff {checked : Bool} {heap : Nat → Bool} {s between : MmState}
    {size ptr : BitVec 32} {a m mmdAllocated : Bool}
    (allocated : mmAllocateMemory checked heap s size a m = some (ptr, between)) (given : ptr ≠ 0) :
    RoundTrip checked s between ptr size mmdAllocated ↔ alignUp size = 0 ∧ mmdAllocated = true := by
  obtain ⟨status, mmd, u, replaced, physical, length, found, pages⟩ := mmAllocateMemory_inv allocated given
  rw [← pageCountOf_eq_zero_iff]
  constructor
  · intro trip
    obtain ⟨after, freed, pte, -⟩ := trip.freed
    cases mmdAllocated with
    | false => simp [mmFreeMemory] at freed
    | true =>
      refine ⟨?_, rfl⟩
      cases list : mmd.pfnList with
      | nil =>
        rw [list] at length
        exact Nat.le_zero.mp length
      | cons pfn pfns =>
        rw [list] at pages length
        have left := first_page_left found pages length freed
        have same : after.pte = u.pte := pte.trans (mmAllocatePhysicalPages_pte.of_eq physical).symm
        obtain ⟨k, -, -, free, -⟩ := found
        rw [← same, left, validKernelPte_not_free] at free
        exact absurd free (by simp)
  · rintro ⟨empty, rfl⟩
    rw [empty] at physical
    obtain ⟨unchanged, noPages⟩ := mmAllocatePhysicalPages_zero.of_eq physical
    rw [noPages mmd rfl] at pages
    cases Option.some.inj pages
    cases unchanged
    exact ⟨⟨_, mmFreeMemory_nothing empty, rfl, fun _ _ => rfl, fun _ _ => Iff.rfl⟩, fun _ _ _ => rfl⟩

/-- Nothing is free, and a size within a page of the address space is rounded up to 0. -/
def noPagesFree : MmState := { fourPages with pte := fun _ => 0, pageListHead := fun _ => 0 }

theorem noPagesFree_round_trip : ∃ between,
    mmAllocateMemory true (fun _ => true) noPagesFree 0xFFFFFFFF true true = some (0xFF000000, between) ∧
      RoundTrip true noPagesFree between 0xFF000000 0xFFFFFFFF true := by
  have returns : (mmAllocateMemory true (fun _ => true) noPagesFree 0xFFFFFFFF true true).map Prod.fst =
      some 0xFF000000 := by decide
  obtain ⟨⟨ptr, between⟩, allocated, same⟩ := Option.map_eq_some_iff.mp returns
  cases same
  exact ⟨between, allocated, (memory_round_trip_iff allocated (by decide)).mpr (by decide)⟩

def pagesFree : MmState := { fourPages with pte := fun _ => 0 }

theorem freed_page_stays_mapped : ∃ between after,
    mmAllocateMemory true (fun _ => true) pagesFree 1 true true = some (0xFF000000, between) ∧
      mmFreeMemory true between 0xFF000000 1 true = some after ∧
      pagesFree.pte 0xFF000 = 0 ∧ after.pte 0xFF000 = 7 := by
  have returns : ((mmAllocateMemory true (fun _ => true) pagesFree 1 true true).bind fun r =>
      (mmFreeMemory true r.2 r.1 1 true).map fun after => (r.1, after.pte 0xFF000)) =
        some (0xFF000000, 7) := by decide
  obtain ⟨⟨ptr, between⟩, allocated, rest⟩ := Option.bind_eq_some_iff.mp returns
  obtain ⟨after, freed, ends⟩ := Option.map_eq_some_iff.mp rest
  obtain ⟨rfl, pte⟩ := Prod.mk.inj ends
  exact ⟨between, after, allocated, freed, rfl, pte⟩

end Gr8os.Mm
