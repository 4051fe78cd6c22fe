import Gr8os.Mm.MappingSteps

/-! Which PTEs a mapping call replaces. -/
namespace Gr8os.Mm

theorem ofNat_ne {i k : Nat} (hi : i < pageTableEntries) (hk : k < pageTableEntries) (ne : k ≠ i) :
    BitVec.ofNat 20 k ≠ BitVec.ofNat 20 i := by
  intro same
  have values := congrArg BitVec.toNat same
  simp only [BitVec.toNat_ofNat] at values
  unfold pageTableEntries at hi hk
  omega

/-- The PTE of one page is written, every other PTE stays. -/
theorem PageMapped.pte_other {heap : Nat → Bool} {s t : MmState} {i pfn p : Nat}
    (h : PageMapped heap s t i pfn p) {k : BitVec 20} (other : k ≠ BitVec.ofNat 20 i) : t.pte k = s.pte k := by
  rw [h.pte]
  exact if_neg other

theorem mapPages_inTable {heap : Nat → Bool} {add : Bool} {mode : ProcessorMode} {i : Nat} {pfns : List Nat}
    {s t : MmState} {replaced : List Mmpte}
    (h : mapPages heap add mode i pfns s = some (replaced, t)) :
    ∀ j < pfns.length, i + j < pageTableEntries := by
  induction pfns generalizing i s replaced with
  | nil =>
    intro j less
    exact absurd less (Nat.not_lt_zero j)
  | cons pfn pfns ih =>
    simp only [mapPages, Option.bind_eq_bind, Option.bind_eq_some_iff] at h
    obtain ⟨s₁, first, ⟨old, t'⟩, rest, last⟩ := h
    cases Option.some.inj last
    intro j less
    cases j with
    | zero => exact (mapPage_inv first).inTable
    | succ j =>
      have := ih rest j (by simpa using less)
      omega

/-- The loop replaces the run of PTEs from the first one on, each once. -/
theorem mapPages_replaced {heap : Nat → Bool} {add : Bool} {mode : ProcessorMode} {i : Nat} {pfns : List Nat}
    {s t : MmState} {replaced : List Mmpte}
    (h : mapPages heap add mode i pfns s = some (replaced, t)) :
    replaced = (List.range' i pfns.length).map fun k => s.pte (BitVec.ofNat 20 k) := by
  induction pfns generalizing i s replaced with
  | nil =>
    cases Option.some.inj h
    rfl
  | cons pfn pfns ih =>
    have inTable := mapPages_inTable h
    simp only [mapPages, Option.bind_eq_bind, Option.bind_eq_some_iff] at h
    obtain ⟨s₁, first, ⟨old, t'⟩, rest, last⟩ := h
    cases Option.some.inj last
    rw [ih rest, List.length_cons, List.range'_succ, List.map_cons]
    congr 1
    apply List.map_congr_left
    intro k inRun
    obtain ⟨low, high⟩ := List.mem_range'_1.mp inRun
    have here := (mapPage_inv first).inTable
    have there := inTable (k - i) (by rw [List.length_cons]; omega)
    exact (mapPage_inv first).pte_other (ofNat_ne here (by omega) (by omega))

theorem runIsFree_eq (p : Mmpte) (pageCount : Nat) : runIsFree p pageCount = mmPteIsFree p := by
  unfold runIsFree
  cases free : mmPteIsFree p with
  | false => rfl
  | true => simp

def pageAt (start : BitVec 32) (k : Nat) : BitVec 32 := start + 0x1000 * BitVec.ofNat 32 k

theorem pageAt_zero (start : BitVec 32) : pageAt start 0 = start := by simp [pageAt]

theorem pageAt_succ (start : BitVec 32) (k : Nat) : pageAt start (k + 1) = pageAt (start + 0x1000) k := by
  apply BitVec.eq_of_toNat_eq
  have pageSize : (0x1000 : BitVec 32).toNat = 0x1000 := rfl
  simp only [pageAt, BitVec.toNat_add, BitVec.toNat_mul, BitVec.toNat_ofNat, pageSize]
  omega

theorem vpn_pageAt (start : BitVec 32) (k : Nat) :
    (vpn (pageAt start k)).toNat = (start.toNat / 4096 + k) % 2 ^ 20 := by
  have pageSize : (0x1000 : BitVec 32).toNat = 0x1000 := rfl
  simp only [vpn, pageAt, BitVec.toNat_setWidth, BitVec.toNat_ushiftRight, BitVec.toNat_add, BitVec.toNat_mul,
    BitVec.toNat_ofNat, pageSize, Nat.shiftRight_eq_div_pow]
  omega

/-- The first page of a scan whose PTE is free. -/
def FirstFree (s : MmState) (start : BitVec 32) (pages : Nat) (virtual : BitVec 32) : Prop :=
  ∃ k < pages, virtual = pageAt start k ∧ mmPteIsFree (s.pte (vpn virtual)) = true ∧
    ∀ j < k, mmPteIsFree (s.pte (vpn (pageAt start j))) = false

theorem firstFree_here {s : MmState} {start virtual : BitVec 32} {left : Nat}
    (free : mmPteIsFree (s.pte (vpn start)) = true) :
    FirstFree s start (left + 1) virtual ↔ start = virtual := by
  constructor
  · rintro ⟨k, less, rfl, here, before⟩
    cases k with
    | zero => exact (pageAt_zero start).symm
    | succ k =>
      have taken := before 0 (by omega)
      rw [pageAt_zero] at taken
      exact absurd (free.symm.trans taken) (by simp)
  · rintro rfl
    exact ⟨0, by omega, (pageAt_zero start).symm, free, fun j less => absurd less (Nat.not_lt_zero j)⟩

theorem firstFree_later {s : MmState} {start virtual : BitVec 32} {left : Nat}
    (taken : mmPteIsFree (s.pte (vpn start)) = false) :
    FirstFree s start (left + 1) virtual ↔ FirstFree s (start + 0x1000) left virtual := by
  constructor
  · rintro ⟨k, less, rfl, here, before⟩
    cases k with
    | zero =>
      rw [pageAt_zero] at here
      exact absurd (here.symm.trans taken) (by simp)
    | succ k =>
      refine ⟨k, by omega, pageAt_succ start k, here, ?_⟩
      intro j low
      rw [← pageAt_succ]
      exact before (j + 1) (by omega)
  · rintro ⟨k, less, rfl, here, before⟩
    refine ⟨k + 1, by omega, (pageAt_succ start k).symm, here, ?_⟩
    intro j low
    cases j with
    | zero => rwa [pageAt_zero]
    | succ j =>
      rw [pageAt_succ]
      exact before j (by omega)

theorem findFree_iff (s : MmState) (start : BitVec 32) (pageCount pages : Nat) (virtual : BitVec 32) :
    findFree s start pageCount pages = some virtual ↔ FirstFree s start pages virtual := by
  induction pages generalizing start with
  | zero => simp [findFree, FirstFree]
  | succ left ih =>
    rw [findFree, runIsFree_eq]
    cases free : mmPteIsFree (s.pte (vpn start)) with
    | true => rw [if_pos rfl, Option.some.injEq, firstFree_here free]
    | false => rw [if_neg (by simp), ih, firstFree_later free]

theorem mmMapLockedPages_inv {heap : Nat → Bool} {s : MmState} {mmd mmd' : Mmd} {mode : ProcessorMode}
    {isImage add : Bool} {r : MapResult} (h : mmMapLockedPages heap s mmd mode isImage add = some (r, mmd')) :
    ∃ start finish, lockedPagesArea mode isImage = some (start, finish) ∧
      ((∀ virtual, ¬ FirstFree s start (pagesBetween start finish) virtual) ∧
          r = { address := 0, replaced := [], state := s } ∨
        ∃ virtual, FirstFree s start (pagesBetween start finish) virtual ∧
          mapPages heap add mode (vpn virtual).toNat mmd.pfnList s = some (r.replaced, r.state) ∧
          r.address = virtual + mmd.offset) := by
  simp only [mmMapLockedPages, Option.bind_eq_bind, Option.bind_eq_some_iff] at h
  obtain ⟨⟨start, finish⟩, area, h⟩ := h
  refine ⟨start, finish, area, ?_⟩
  dsimp only at h
  split at h
  case h_1 missed =>
    cases Option.some.inj h
    refine .inl ⟨?_, rfl⟩
    intro virtual found
    rw [← findFree_iff s _ mmd.pfnList.length] at found
    simp [missed] at found
  case h_2 virtual found =>
    simp only [Option.bind_eq_some_iff] at h
    obtain ⟨⟨replaced, t⟩, mapped, last⟩ := h
    cases Option.some.inj last
    exact .inr ⟨virtual, (findFree_iff ..).mp found, mapped, rfl⟩

/-! The two calls that look for room. -/

inductive MapCall
  | inRange (virtualAddressStart virtualAddressEnd physicalAddress pageCount : BitVec 32)
      (addToWorkingSet : Bool) (targetMode : ProcessorMode)
  | locked (mmd : Mmd) (targetMode : ProcessorMode) (isImage addToWorkingSet : Bool)

namespace MapCall

def run (heap : Nat → Bool) (s : MmState) : MapCall → Option MapResult
  | inRange a b pa n add mode => mmMapPhysicalPagesInRange heap s a b pa n add mode
  | locked mmd mode isImage add => (mmMapLockedPages heap s mmd mode isImage add).map Prod.fst

/-- The first address of the scan and how many pages it looks at. -/
def scan : MapCall → Option (BitVec 32 × Nat)
  | inRange a b _ _ _ _ => some (alignDown a, pagesBetween (alignDown a) (alignUp b))
  | locked _ mode isImage _ =>
    (lockedPagesArea mode isImage).map fun area => (area.1, pagesBetween area.1 area.2)

def frames : MapCall → List Nat
  | inRange _ _ pa n _ _ => physicalFrames pa n.toNat
  | locked mmd _ _ _ => mmd.pfnList

def addToWorkingSet : MapCall → Bool
  | inRange _ _ _ _ add _ => add
  | locked _ _ _ add => add

def targetMode : MapCall → ProcessorMode
  | inRange _ _ _ _ _ mode => mode
  | locked _ mode _ _ => mode

end MapCall

/-- A call that returns has found no free PTE, or it has mapped its pages from the first free PTE on. -/
theorem MapCall.run_inv {heap : Nat → Bool} {s : MmState} {c : MapCall} {r : MapResult}
    (h : c.run heap s = some r) :
    ∃ start pages, c.scan = some (start, pages) ∧
      (((∀ virtual, ¬ FirstFree s start pages virtual) ∧ r.replaced = [] ∧ r.state = s) ∨
        ∃ virtual, FirstFree s start pages virtual ∧
          mapPages heap c.addToWorkingSet c.targetMode (vpn virtual).toNat c.frames s =
            some (r.replaced, r.state)) := by
  cases c with
  | inRange a b pa n add mode =>
    refine ⟨_, _, rfl, ?_⟩
    simp only [MapCall.run, mmMapPhysicalPagesInRange] at h
    split at h
    case h_1 missed =>
      cases Option.some.inj h
      refine .inl ⟨?_, rfl, rfl⟩
      intro virtual found
      rw [← findFree_iff s _ n.toNat] at found
      simp [missed] at found
    case h_2 virtual found =>
      simp only [Option.bind_eq_bind, Option.bind_eq_some_iff] at h
      obtain ⟨⟨replaced, t⟩, mapped, last⟩ := h
      cases Option.some.inj last
      exact .inr ⟨virtual, (findFree_iff ..).mp found, mapped⟩
  | locked mmd mode isImage add =>
    obtain ⟨⟨r', mmd'⟩, code, rfl⟩ := Option.map_eq_some_iff.mp h
    obtain ⟨start, finish, area, missed | ⟨virtual, found, mapped, -⟩⟩ := mmMapLockedPages_inv code
    · refine ⟨start, pagesBetween start finish, by simp [MapCall.scan, area], .inl ⟨missed.1, ?_, ?_⟩⟩
      · rw [missed.2]
      · rw [missed.2]
    · exact ⟨start, pagesBetween start finish, by simp [MapCall.scan, area], .inr ⟨virtual, found, mapped⟩⟩

/-- From the first free PTE of its scan on, as many PTEs are free as the call has pages. -/
def MapCall.RunFree (c : MapCall) (s : MmState) : Prop :=
  ∀ start pages virtual, c.scan = some (start, pages) → FirstFree s start pages virtual →
    ∀ j < c.frames.length, mmPteIsFree (s.pte (BitVec.ofNat 20 ((vpn virtual).toNat + j))) = true

theorem firstFree_unique {s : MmState} {start virtual virtual' : BitVec 32} {pages : Nat}
    (h : FirstFree s start pages virtual) (h' : FirstFree s start pages virtual') : virtual = virtual' := by
  have first := (findFree_iff s start 1 pages virtual).mpr h
  have second := (findFree_iff s start 1 pages virtual').mpr h'
  exact Option.some.inj (first.symm.trans second)

theorem mapping_replaces_free_iff {heap : Nat → Bool} {s : MmState} {c : MapCall} {r : MapResult}
    (returned : c.run heap s = some r) :
    (∀ p ∈ r.replaced, mmPteIsFree p = true) ↔ c.RunFree s := by
  obtain ⟨start, pages, scan, ⟨full, none, -⟩ | ⟨virtual, found, mapped⟩⟩ := MapCall.run_inv returned
  · rw [none]
    constructor
    · intro _ start' pages' virtual scan' found
      cases Option.some.inj (scan.symm.trans scan')
      exact absurd found (full virtual)
    · intro _ p member
      exact absurd member (by simp)
  · rw [mapPages_replaced mapped]
    constructor
    · intro free start' pages' virtual' scan' found' j less
      cases Option.some.inj (scan.symm.trans scan')
      cases firstFree_unique found found'
      apply free
      exact List.mem_map_of_mem (List.mem_range'_1.mpr ⟨by omega, by omega⟩)
    · intro free p member
      obtain ⟨k, inRun, rfl⟩ := List.mem_map.mp member
      obtain ⟨low, high⟩ := List.mem_range'_1.mp inRun
      have here := free start pages virtual scan found (k - (vpn virtual).toNat) (by omega)
      rwa [Nat.add_sub_cancel' low] at here

/-- Four pages of memory, and one mapped page amid free PTEs. -/
def holed : MmState where
  physicalMemoryPages := 4
  mmPpdDatabase := 1200
  ppd := fun _ => { u1 := 0, u2 := 0, pageLocation := .activeAndValid, modified := false }
  pageListHead := fun _ => 0
  pte := fun i => if i = 0xFF001 then 0x3007 else 0

def pastHole : MapCall := .inRange 0xFF002000 0xFF010000 0x1000 2 false .kernelMode

theorem pastHole_replaces_free : ∃ r, pastHole.run (fun _ => true) holed = some r ∧
    r.replaced = [0, 0] ∧ pastHole.RunFree holed := by
  have mapped : (pastHole.run (fun _ => true) holed).map (·.replaced) = some [0, 0] := by decide
  obtain ⟨r, returned, replaced⟩ := Option.map_eq_some_iff.mp mapped
  refine ⟨r, returned, replaced, (mapping_replaces_free_iff returned).mp ?_⟩
  rw [replaced]
  intro p member
  have zero : p = 0 := by simpa using member
  rw [zero]
  decide

theorem hole_overwritten :
    ((MapCall.inRange 0xFF000000 0xFF010000 0x1000 2 false .kernelMode).run (fun _ => true) holed).map
        (·.replaced) = some [0, 0x3007] ∧
      ((MapCall.locked { flags := 1, pfnList := [1, 2] } .kernelMode false false).run (fun _ => true)
        holed).map (·.replaced) = some [0, 0x3007] ∧
      mmPteIsFree 0x3007 = false :=
  ⟨by decide, by decide, by decide⟩

end Gr8os.Mm
