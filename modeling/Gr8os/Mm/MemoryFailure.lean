import Gr8os.Ex.LiveBlocks
import Gr8os.Mm.Memory
import Gr8os.Mm.PageAllocation

/-! What a request for kernel memory leaves behind when there are too few pages. -/
namespace Gr8os.Mm.Blocks

open Ex Intrusive

section calls

variable {H : Type} (K : KernelHeap H) (checked : Bool)

/-- One of the frame numbers is in the structure. -/
def sizeofMmd (pageCount : Nat) : BitVec 32 := 24 + (BitVec.ofNat 32 pageCount - 1) * 4

/-- The allocation with the blocks of its array and of its descriptor, which is cleared unchecked. -/
def mmAllocatePhysicalPages (s : MmState) (h : H) (pageCount : Nat) :
    Option (Status × Option (Nat × Mmd) × MmState × H) :=
  if pageCount > s.physicalMemoryPages then some (.insufficientResources, none, s, h)
  else
    match K.exAllocateHeap h (4 * BitVec.ofNat 32 pageCount) with
    | none => some (.insufficientResources, none, s, h)
    | some (array, h) => do
      let (status, mmd, s) ← Mm.mmAllocatePhysicalPages checked s pageCount true true
      let mmd ← mmd
      let (block, h) ← K.exAllocateHeap h (sizeofMmd mmd.pfnList.length)
      some (status, some (block, mmd), s, K.exFreeHeap h array)

def mmAllocateMemory (heap : Nat → Bool) (s : MmState) (h : H) (memorySize : BitVec 32) :
    Option (BitVec 32 × MmState × H) := do
  let (status, mmd, s, h) ← mmAllocatePhysicalPages K checked s h (pageCountOf memorySize)
  if !status.isSuccess then some (0, s, h)
  else
    let (block, mmd) ← mmd
    let (r, _) ← mmMapLockedPages heap s mmd .kernelMode false false
    if checked && r.address = 0 then none else some (r.address, r.state, K.exFreeHeap h block)

/-- The call returns 0, and no list, no descriptor and no block in use has changed. -/
def FailsUnchanged (heap : Nat → Bool) (s : MmState) (h : H) (memorySize : BitVec 32) : Prop :=
  ∃ t h', mmAllocateMemory K checked heap s h memorySize = some (0, t, h') ∧
    t.pageListHead = s.pageListHead ∧ t.ppd = s.ppd ∧ K.live h' = K.live h

end calls

section failure

variable {H : Type} {K : KernelHeap H} {checked : Bool} {heap : Nat → Bool} {s : MmState} {h : H}
  {memorySize : BitVec 32} {lists : PageList → List Nat}

/-- More pages than the machine has, or no array to list them in. -/
def RefusedAtOnce (K : KernelHeap H) (s : MmState) (h : H) (memorySize : BitVec 32) : Prop :=
  s.physicalMemoryPages < pageCountOf memorySize ∨
    K.exAllocateHeap h (4 * BitVec.ofNat 32 (pageCountOf memorySize)) = none

theorem refused_unchanged (refused : RefusedAtOnce K s h memorySize) : FailsUnchanged K checked heap s h memorySize := by
  have failed : ¬ Status.insufficientResources.isSuccess = true := by decide
  refine ⟨s, h, ?_, rfl, rfl, rfl⟩
  unfold mmAllocateMemory mmAllocatePhysicalPages
  by_cases large : pageCountOf memorySize > s.physicalMemoryPages
  · rw [if_pos large]
    simp [failed]
  · rw [if_neg large, refused.resolve_left large]
    simp [failed]

/-- What is asked for of the lists, once the array is there. -/
theorem mmAllocatePhysicalPages_some {array pageCount : Nat} {h₁ : H} (fits : ¬ pageCount > s.physicalMemoryPages)
    (made : K.exAllocateHeap h (4 * BitVec.ofNat 32 pageCount) = some (array, h₁)) :
    mmAllocatePhysicalPages K checked s h pageCount =
      (Mm.mmAllocatePhysicalPages checked s pageCount true true).bind fun r =>
        r.2.1.bind fun mmd => (K.exAllocateHeap h₁ (sizeofMmd mmd.pfnList.length)).map fun b =>
          (r.1, some (b.1, mmd), r.2.2, K.exFreeHeap b.2 array) := by
  unfold mmAllocatePhysicalPages
  rw [if_neg fits, made]
  simp only [Option.bind_eq_bind, Option.map_eq_bind]
  rfl

/-- A block that is freed while another one is kept: what was in use is in use, and the other one too. -/
theorem live_kept {h₁ h₂ : H} {array block : Nat} {size size' : BitVec 32}
    (first : K.exAllocateHeap h size = some (array, h₁)) (second : K.exAllocateHeap h₁ size' = some (block, h₂)) :
    K.live (K.exFreeHeap h₂ array) = insert block (K.live h) ∧ block ∉ K.live h := by
  have fresh := K.fresh first
  have apart := K.fresh second
  rw [K.allocated first] at apart
  have inUse : array ∈ K.live h₂ := by
    rw [K.allocated second, K.allocated first]
    exact Set.mem_insert_of_mem _ (Set.mem_insert _ _)
  refine ⟨?_, fun old => apart (Set.mem_insert_of_mem _ old)⟩
  rw [K.freed inUse, K.allocated second, K.allocated first]
  ext a
  simp only [Set.mem_sdiff, Set.mem_insert_iff, Set.mem_singleton_iff] at apart ⊢
  grind

/-- Where pages are missing, the descriptor of those that were there is left over. -/
theorem short_changed {array : Nat} {h₁ : H} (ok : PageListsOk s lists)
    (fits : ¬ pageCountOf memorySize > s.physicalMemoryPages)
    (made : K.exAllocateHeap h (4 * BitVec.ofNat 32 (pageCountOf memorySize)) = some (array, h₁))
    (short : (allocatedPages lists (pageCountOf memorySize)).length < pageCountOf memorySize) :
    ¬ FailsUnchanged K checked heap s h memorySize := by
  rintro ⟨t, h', code, -, -, live⟩
  have failed : Status.partialCompletion.isSuccess = false := by decide
  have entered : pageCountOf memorySize = 0 → lists .freePageList = [] := fun zero => by omega
  have physical := (mmAllocatePhysicalPages_eq checked true ok (Nat.not_lt.mp fits) entered).1
  rw [if_pos short, if_pos rfl] at physical
  rw [mmAllocateMemory, mmAllocatePhysicalPages_some fits made, physical] at code
  simp only [Option.bind_eq_bind, Option.bind_some] at code
  obtain ⟨r, described, code⟩ := Option.bind_eq_some_iff.mp code
  obtain ⟨⟨block, h₂⟩, second, rfl⟩ := Option.map_eq_some_iff.mp described
  simp only [failed, Bool.not_false, if_true, Option.some.injEq, Prod.mk.injEq] at code
  obtain ⟨-, -, rfl⟩ := code
  obtain ⟨kept, fresh⟩ := live_kept made second
  rw [kept] at live
  exact fresh (live ▸ Set.mem_insert block (K.live h))

/-- A size within a page of the address space asks for no page. Nothing is free, neither a page nor an address. -/
structure NothingToMap (K : KernelHeap H) (checked : Bool) (s : MmState) (h : H) (memorySize : BitVec 32) : Prop where
  rounded : pageCountOf memorySize = 0
  noPage : s.pageListHead .freePageList = 0
  noAddress : ∀ virtual, ¬ FirstFree s mmCriticalArea (pagesBetween mmCriticalArea mmCriticalAreaEnd) virtual
  unchecked : checked = false
  described : ∃ array h₁, K.exAllocateHeap h 0 = some (array, h₁) ∧ (K.exAllocateHeap h₁ (sizeofMmd 0)).isSome = true

theorem criticalArea_ne_zero {virtual : BitVec 32}
    (found : FirstFree s mmCriticalArea (pagesBetween mmCriticalArea mmCriticalAreaEnd) virtual) : virtual ≠ 0 := by
  obtain ⟨k, less, rfl, -⟩ := found
  intro null
  have index := vpn_pageAt mmCriticalArea k
  have base : mmCriticalArea.toNat / 4096 = 0xFF000 := by decide
  have room : pagesBetween mmCriticalArea mmCriticalAreaEnd = 0xFFD := by decide
  have first : (vpn 0).toNat = 0 := by decide
  rw [null, first, base] at index
  omega

/-- No page is asked for and none is free: the descriptor is empty. -/
theorem mmAllocatePhysicalPages_nothing (checked : Bool) (ok : PageListsOk s lists) (empty : lists .freePageList = []) :
    Mm.mmAllocatePhysicalPages checked s 0 true true = some (.success, some (mmdOf s []), s) := by
  have physical := (mmAllocatePhysicalPages_eq checked true ok (Nat.zero_le _) fun _ => empty).1
  have unchanged : s.allocated lists 0 = s := (mmAllocatePhysicalPages_zero.of_eq physical).1
  rw [unchanged, allocatedPages, List.take_zero] at physical
  exact physical

theorem mmAllocateMemory_nothing {array : Nat} {h₁ : H} (ok : PageListsOk s lists)
    (zero : pageCountOf memorySize = 0) (empty : lists .freePageList = [])
    (made : K.exAllocateHeap h (4 * BitVec.ofNat 32 (pageCountOf memorySize)) = some (array, h₁)) :
    mmAllocateMemory K checked heap s h memorySize =
      (K.exAllocateHeap h₁ (sizeofMmd 0)).bind fun b =>
        (mmMapLockedPages heap s (mmdOf s []) .kernelMode false false).bind fun r =>
          if checked && r.1.address = 0 then none
          else some (r.1.address, r.1.state, K.exFreeHeap (K.exFreeHeap b.2 array) b.1) := by
  have fits : ¬ pageCountOf memorySize > s.physicalMemoryPages := by omega
  have succeeded : Status.success.isSuccess = true := by decide
  rw [mmAllocateMemory, mmAllocatePhysicalPages_some fits made, zero,
    mmAllocatePhysicalPages_nothing checked ok empty]
  cases described : K.exAllocateHeap h₁ (sizeofMmd 0) with
  | none => simp [mmdOf, described]
  | some b => simp [mmdOf, described, succeeded]

/-- An empty descriptor is mapped nowhere when no address is free. -/
theorem mmMapLockedPages_nothing
    (full : ∀ virtual, ¬ FirstFree s mmCriticalArea (pagesBetween mmCriticalArea mmCriticalAreaEnd) virtual) :
    mmMapLockedPages heap s (mmdOf s []) .kernelMode false false =
      some ({ address := 0, replaced := [], state := s }, mmdOf s []) := by
  have noAddress : findFree s mmCriticalArea 0 (pagesBetween mmCriticalArea mmCriticalAreaEnd) = none :=
    Option.eq_none_iff_forall_ne_some.mpr fun virtual found => full virtual ((findFree_iff ..).mp found)
  have pages : (mmdOf s []).pfnList.length = 0 := rfl
  simp only [mmMapLockedPages, lockedPagesArea, Bool.false_eq_true, if_false, Option.bind_eq_bind,
    Option.bind_some, pages, noAddress]

theorem nothing_asked_iff {array : Nat} {h₁ : H} (ok : PageListsOk s lists) (zero : pageCountOf memorySize = 0)
    (made : K.exAllocateHeap h (4 * BitVec.ofNat 32 (pageCountOf memorySize)) = some (array, h₁)) :
    FailsUnchanged K checked heap s h memorySize ↔ NothingToMap K checked s h memorySize := by
  have none := chain_empty_iff (ok.chain .freePageList)
  have asked : (4 : BitVec 32) * BitVec.ofNat 32 (pageCountOf memorySize) = 0 := by rw [zero]; rfl
  by_cases empty : lists .freePageList = []
  · constructor
    · rintro ⟨t, h', returned, -⟩
      rw [mmAllocateMemory_nothing ok zero empty made] at returned
      obtain ⟨b, described, rest⟩ := Option.bind_eq_some_iff.mp returned
      obtain ⟨⟨r, mmd⟩, mapped, last⟩ := Option.bind_eq_some_iff.mp rest
      dsimp only at last
      split at last
      · exact absurd last (by simp)
      · rename_i unchecked
        simp only [Option.some.injEq, Prod.mk.injEq] at last
        obtain ⟨null, -⟩ := last
        obtain ⟨start, finish, area, ⟨full, -⟩ | ⟨virtual, found, -, address⟩⟩ := mmMapLockedPages_inv mapped
        · cases area
          refine ⟨zero, none.mpr empty, full, ?_, array, h₁, asked ▸ made, by rw [described]; rfl⟩
          simpa [null] using unchecked
        · cases area
          have offset : (mmdOf s []).offset = 0 := rfl
          have first : virtual = 0 := by simpa [null, offset] using address.symm
          exact absurd first (criticalArea_ne_zero found)
    · intro nothing
      obtain ⟨array', h₁', first, second⟩ := nothing.described
      cases (asked ▸ made).symm.trans first
      obtain ⟨⟨block, h₂⟩, described⟩ := Option.isSome_iff_exists.mp second
      obtain ⟨kept, fresh⟩ := live_kept made described
      have inUse : block ∈ K.live (K.exFreeHeap h₂ array) := kept ▸ Set.mem_insert _ _
      refine ⟨s, K.exFreeHeap (K.exFreeHeap h₂ array) block, ?_, rfl, rfl, ?_⟩
      · rw [mmAllocateMemory_nothing ok zero empty made, described, Option.bind_some, mmMapLockedPages_nothing nothing.noAddress, Option.bind_some,
          nothing.unchecked]
        rfl
      · rw [K.freed inUse, kept]
        exact Set.insert_sdiff_self_of_notMem fresh
  · have fits : ¬ pageCountOf memorySize > s.physicalMemoryPages := by omega
    constructor
    · rintro ⟨t, h', returned, -⟩
      rw [mmAllocateMemory, mmAllocatePhysicalPages_some fits made, zero,
        mmAllocatePhysicalPages_overrun checked true ok empty] at returned
      exact absurd returned (by simp)
    · intro nothing
      exact absurd (none.mp nothing.noPage) empty

theorem failed_memory_unchanged_iff (ok : PageListsOk s lists)
    (short : (lists .freePageList).length + (lists .zeroedPageList).length < pagesOf memorySize) :
    FailsUnchanged K checked heap s h memorySize ↔
      RefusedAtOnce K s h memorySize ∨ NothingToMap K checked s h memorySize := by
  have rounded := pageCountOf_eq memorySize
  have bound : pagesOf memorySize ≤ 2 ^ 20 := by
    have := memorySize.isLt
    unfold pagesOf
    omega
  by_cases refused : RefusedAtOnce K s h memorySize
  · exact iff_of_true (refused_unchanged refused) (.inl refused)
  · obtain ⟨fits, allocates⟩ := not_or.mp refused
    obtain ⟨⟨array, h₁⟩, made⟩ := Option.ne_none_iff_exists'.mp allocates
    rw [or_iff_right refused]
    by_cases zero : pageCountOf memorySize = 0
    · exact nothing_asked_iff ok zero made
    · have taken : (allocatedPages lists (pageCountOf memorySize)).length < pageCountOf memorySize := by
        rw [allocatedPages, List.length_take, List.length_append]
        omega
      exact iff_of_false (short_changed ok fits made taken) fun nothing => zero nothing.rounded

end failure

def emptyHeap : Bump where
  next := 1
  blocks := []
  below := by simp

theorem fivePages_unchanged : FailsUnchanged (bumpHeap 0x1000) true (fun _ => true) fourPages emptyHeap 0x5000 := by
  obtain ⟨lists, ok⟩ := fourPages_wellFormed
  have noFree : lists .freePageList = [] := (chain_empty_iff (ok.chain .freePageList)).mp rfl
  have atMost := list_length_le ok .zeroedPageList
  have pages : fourPages.physicalMemoryPages = 4 := rfl
  have asked : pagesOf 0x5000 = 5 := by decide
  have short : (lists .freePageList).length + (lists .zeroedPageList).length < pagesOf 0x5000 := by
    rw [noFree, List.length_nil]
    omega
  exact (failed_memory_unchanged_iff ok short).mpr (.inl (.inl (by decide)))

/-- One page of the four is in use, and four are asked for. -/
theorem threePages_taken : ∃ s lists, miChangePageLocation true fourPages 1200 .activeAndValid = some s ∧
    PageListsOk s lists ∧
    (lists .freePageList).length + (lists .zeroedPageList).length < pagesOf 0x4000 ∧
    ¬ FailsUnchanged (bumpHeap 0x1000) true (fun _ => true) s emptyHeap 0x4000 := by
  have code : ((miChangePageLocation true fourPages 1200 .activeAndValid).bind fun s =>
      (mmAllocateMemory (bumpHeap 0x1000) true (fun _ => true) s emptyHeap 0x4000).map fun r =>
        (s.pageListHead .freePageList, (s.ppd 1212).pageLocation, (r.2.1.ppd 1212).pageLocation, r.2.2.blocks)) =
      some (0, .list .zeroedPageList, .activeAndValid, [2]) := by decide
  obtain ⟨s, taken, rest⟩ := Option.bind_eq_some_iff.mp code
  obtain ⟨⟨address, t, h'⟩, returned, ends⟩ := Option.map_eq_some_iff.mp rest
  simp only [Prod.mk.injEq] at ends
  obtain ⟨noFree, zeroed, active, -⟩ := ends
  obtain ⟨whole, ok⟩ := fourPages_wellFormed
  obtain ⟨after, -⟩ := miChangePageLocation_ok ok taken
  refine ⟨s, _, taken, after, ?_, ?_⟩
  · have none := (chain_empty_iff (after.chain .freePageList)).mp noFree
    have member : 1200 ∈ whole .zeroedPageList := (ok.member _ _).mpr ⟨by decide, rfl⟩
    have most := list_length_le ok .zeroedPageList
    have pages : fourPages.physicalMemoryPages = 4 := rfl
    have left : (moved whole 1200 .activeAndValid .zeroedPageList).length = (whole .zeroedPageList).length - 1 :=
      List.length_erase_of_mem member
    have asked : pagesOf 0x4000 = 4 := by decide
    have some := List.length_pos_of_mem member
    rw [none, left, List.length_nil]
    omega
  · rintro ⟨t', h'', failed, -, same, -⟩
    cases failed.symm.trans returned
    rw [same, zeroed] at active
    exact absurd active (by decide)

end Gr8os.Mm.Blocks
