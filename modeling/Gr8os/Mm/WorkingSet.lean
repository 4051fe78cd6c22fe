import Gr8os.Mm.ShareCount

/-! The working set and the pages recorded in it, over runs of mapping, unmapping, trimming and faults. -/
namespace Gr8os.Mm

open Runs

/-- The fault on a page of a view. `cached` is the buffer of the cache that holds the page, if any;
reading the page is not implemented. -/
def mmViewFault (checked : Bool) (s : MmState) (virtualAddress : BitVec 32) (writeFault : Bool)
    (cached : Option (BitVec 32)) (protection : BitVec 32) (targetMode : ProcessorMode) : Option MmState :=
  let pte := s.pte (vpn virtualAddress)
  if writeFault && pte.valid then none
  else if pte.pteType ≠ pteTypeView then none
  else
    match cached with
    | none => if checked then none else some s
    | some buffer =>
      let temp := s.pte (vpn buffer)
      if checked && !temp.valid then none
      else
        let write := protection = mmReadwrite ∨ protection = mmExecuteReadwrite
        let flags : BitVec 32 := (if write then 2 else 0) ||| (if targetMode = .kernelMode then 4 else 0) ||| 1
        -- Accessed and Dirty are cleared, the type stays that of a view
        some (s.setPte (vpn virtualAddress) ((pte &&& 0xF98) ||| flags ||| (temp &&& 0xFFFFF000)))

namespace MmWorkingSet

/-- The array fits in the address space. -/
def Fits (w : MmWorkingSet) : Prop := sizeofMmworkingSetEntry * w.totalPageCount < 2 ^ 32

variable {w w' : MmWorkingSet} {i j p : Nat}

theorem setEntry_here (w : MmWorkingSet) (i : Nat) (e : MmWorkingSetEntry) : (w.setEntry i e).wsPages i = e :=
  if_pos rfl

theorem setEntry_other (w : MmWorkingSet) (e : MmWorkingSetEntry) (ne : j ≠ i) :
    (w.setEntry i e).wsPages j = w.wsPages j :=
  if_neg ne

theorem freeEntry_inv (h : w.freeEntry = some i) : i < w.totalPageCount ∧ (w.wsPages i).present = false := by
  have unused := List.find?_some h
  have member := List.mem_of_find?_eq_some h
  exact ⟨List.mem_range.mp member, by simpa using unused⟩

/-- The entries that are present stay where they are. -/
structure Added (w w' : MmWorkingSet) (i p : Nat) : Prop where
  larger : w.totalPageCount ≤ w'.totalPageCount
  fits : w'.Fits
  inside : i < w'.totalPageCount
  here : w'.wsPages i = { pageDescriptor := p, present := true, lockedInWs := true }
  kept : ∀ j < w.totalPageCount, (w.wsPages j).present = true → w'.wsPages j = w.wsPages j

theorem grow_old (w : MmWorkingSet) (less : j < w.totalPageCount) : w.grow.wsPages j = w.wsPages j := by
  apply if_neg
  omega

theorem added_of_freeEntry {v : MmWorkingSet} (fits : v.Fits) (larger : w.totalPageCount ≤ v.totalPageCount)
    (old : ∀ j < w.totalPageCount, v.wsPages j = w.wsPages j) (h : v.freeEntry = some i) :
    Added w (v.setEntry i { pageDescriptor := p, present := true, lockedInWs := true }) i p := by
  obtain ⟨inside, unused⟩ := freeEntry_inv h
  constructor
  · exact larger
  · exact fits
  · exact inside
  · exact setEntry_here ..
  · intro j less present
    have apart : j ≠ i := by
      rintro rfl
      rw [old j less, present] at unused
      exact absurd unused (by simp)
    rw [setEntry_other _ _ apart, old j less]

end MmWorkingSet

theorem miAddPageToWorkingSet_inv {heap : Nat → Bool} {w w' : MmWorkingSet} {i p : Nat} (fits : w.Fits)
    (h : miAddPageToWorkingSet heap w p = some (i, w')) : MmWorkingSet.Added w w' i p := by
  unfold miAddPageToWorkingSet at h
  dsimp only at h
  split at h
  case h_1 j found =>
    cases Option.some.inj h
    exact MmWorkingSet.added_of_freeEntry fits (Nat.le_refl _) (fun _ _ => rfl) found
  case h_2 =>
    split at h
    case isTrue grown =>
      have room : w.grow.Fits := by
        simp only [grows, Bool.and_eq_true, decide_eq_true_eq] at grown
        exact grown.1
      split at h
      case h_1 j found =>
        cases Option.some.inj h
        exact MmWorkingSet.added_of_freeEntry room (Nat.le_add_right _ _) (fun _ less => w.grow_old less) found
      case h_2 => exact absurd h (by simp)
    case isFalse => exact absurd h (by simp)

/-- The index of a page names the entry that points back to it. -/
structure InWorkingSet (s : MmState) (p : Nat) : Prop where
  inside : (s.ppd p).u1 < s.workingSet.totalPageCount
  present : (s.workingSet.wsPages (s.ppd p).u1).present = true
  back : (s.workingSet.wsPages (s.ppd p).u1).pageDescriptor = p

instance (s : MmState) (p : Nat) : Decidable (InWorkingSet s p) :=
  decidable_of_iff
    ((s.ppd p).u1 < s.workingSet.totalPageCount ∧ (s.workingSet.wsPages (s.ppd p).u1).present = true ∧
      (s.workingSet.wsPages (s.ppd p).u1).pageDescriptor = p)
    ⟨fun h => ⟨h.1, h.2.1, h.2.2⟩, fun h => ⟨h.inside, h.present, h.back⟩⟩

/-- A mapped page is in the working set or has no index, and a page that is not mapped is not recorded. -/
structure WorkingSetOk (s : MmState) : Prop where
  fits : s.workingSet.Fits
  mapped : ∀ f < s.physicalMemoryPages, shareCount s f ≠ 0 → InWorkingSet s (mmPfnPpd s f) ∨
    (s.ppd (mmPfnPpd s f)).u1 = noWsIndex ∧ (s.ppd (mmPfnPpd s f)).belongsToSystemWorkingSet = false
  unmapped : ∀ f < s.physicalMemoryPages, shareCount s f = 0 →
    (s.ppd (mmPfnPpd s f)).belongsToSystemWorkingSet = false

theorem InWorkingSet.distinct {s : MmState} {p q : Nat} (hp : InWorkingSet s p) (hq : InWorkingSet s q)
    (same : (s.ppd p).u1 = (s.ppd q).u1) : p = q := by
  have back := hp.back
  rw [same, hq.back] at back
  exact back.symm

theorem InWorkingSet.carry {s t : MmState} {p : Nat} (h : InWorkingSet s p) (index : (t.ppd p).u1 = (s.ppd p).u1)
    (larger : s.workingSet.totalPageCount ≤ t.workingSet.totalPageCount)
    (kept : t.workingSet.wsPages (s.ppd p).u1 = s.workingSet.wsPages (s.ppd p).u1) : InWorkingSet t p := by
  constructor
  · rw [index]
    exact Nat.lt_of_lt_of_le h.inside larger
  · rw [index, kept]
    exact h.present
  · rw [index, kept]
    exact h.back

/-- One page changes, and the entries of the other pages stay. -/
theorem WorkingSetOk.page {s t : MmState} (ok : WorkingSetOk s) (pfn : Nat) (same : SameDatabase s t)
    (others : ∀ q, q ≠ mmPfnPpd s pfn → t.ppd q = s.ppd q) (fits : t.workingSet.Fits)
    (larger : s.workingSet.totalPageCount ≤ t.workingSet.totalPageCount)
    (kept : ∀ q, q ≠ mmPfnPpd s pfn → InWorkingSet s q →
      t.workingSet.wsPages (s.ppd q).u1 = s.workingSet.wsPages (s.ppd q).u1)
    (mapped : shareCount t pfn ≠ 0 → InWorkingSet t (mmPfnPpd s pfn) ∨
      (t.ppd (mmPfnPpd s pfn)).u1 = noWsIndex ∧ (t.ppd (mmPfnPpd s pfn)).belongsToSystemWorkingSet = false)
    (unmapped : shareCount t pfn = 0 → (t.ppd (mmPfnPpd s pfn)).belongsToSystemWorkingSet = false) :
    WorkingSetOk t := by
  have apart {f : Nat} (other : f ≠ pfn) : mmPfnPpd s f ≠ mmPfnPpd s pfn :=
    fun same => other (mmPfnPpd_injective s same)
  have untouched {f : Nat} (other : f ≠ pfn) : t.ppd (mmPfnPpd s f) = s.ppd (mmPfnPpd s f) :=
    others _ (apart other)
  have shared {f : Nat} (other : f ≠ pfn) : shareCount t f = shareCount s f := by
    rw [shareCount, same.ppd_eq, untouched other]
    rfl
  constructor
  · exact fits
  · intro f inside used
    rw [same.pages] at inside
    rw [same.ppd_eq]
    rcases Decidable.em (f = pfn) with rfl | other
    · exact mapped used
    · rw [shared other] at used
      rcases ok.mapped f inside used with listed | unlisted
      · exact .inl (listed.carry (by rw [untouched other]) larger (kept _ (apart other) listed))
      · rw [untouched other]
        exact .inr unlisted
  · intro f inside unused
    rw [same.pages] at inside
    rw [same.ppd_eq]
    rcases Decidable.em (f = pfn) with rfl | other
    · exact unmapped unused
    · rw [shared other] at unused
      rw [untouched other]
      exact ok.unmapped f inside unused

theorem PageMapped.workingSetOk {heap : Nat → Bool} {s t : MmState} {i pfn p : Nat}
    (step : PageMapped heap s t i pfn p) (ok : WorkingSetOk s) (room : shareCount s pfn < 31) :
    WorkingSetOk t := by
  have count := step.shareCount_eq room pfn
  rw [if_pos rfl] at count
  cases step.frame
  have unused : shareCount t pfn ≠ 0 := by omega
  rcases Decidable.em (shareCount s pfn = 0) with zero | shared
  · have fresh : (s.ppd (mmPfnPpd s pfn)).shareCount = 0 := BitVec.eq_of_toNat_eq zero
    have unrecorded := ok.unmapped pfn step.described zero
    rcases step.first fresh with ⟨sameSet, index, recorded⟩ | joined
    · apply ok.page pfn step.same step.others
      · rw [sameSet]
        exact ok.fits
      · rw [sameSet]
      · intro q _ _
        rw [sameSet]
      · intro _
        exact .inr ⟨index, recorded.trans unrecorded⟩
      · intro zero
        exact absurd zero unused
    · have added := miAddPageToWorkingSet_inv ok.fits joined
      apply ok.page pfn step.same step.others
      · exact added.fits
      · exact added.larger
      · intro q _ listed
        exact added.kept _ listed.inside listed.present
      · intro _
        exact .inl ⟨added.inside, by rw [added.here], by rw [added.here]⟩
      · intro zero
        exact absurd zero unused
  · have nonzero : (s.ppd (mmPfnPpd s pfn)).shareCount ≠ 0 := by
      intro zero
      exact shared (congrArg BitVec.toNat zero)
    obtain ⟨sameSet, index, recorded⟩ := step.again nonzero
    apply ok.page pfn step.same step.others
    · rw [sameSet]
      exact ok.fits
    · rw [sameSet]
    · intro q _ _
      rw [sameSet]
    · intro _
      rw [index, recorded]
      exact (ok.mapped pfn step.described shared).imp_left fun listed =>
        listed.carry index (by rw [sameSet]) (by rw [sameSet])
    · intro zero
      exact absurd zero unused

theorem noWsIndex_outside {w : MmWorkingSet} (fits : w.Fits) : w.totalPageCount ≤ noWsIndex := by
  unfold MmWorkingSet.Fits sizeofMmworkingSetEntry at fits
  unfold noWsIndex
  omega

theorem PageUnmapped.workingSetOk {s t : MmState} {i p pfn : Nat} (step : PageUnmapped s t i p)
    (ok : WorkingSetOk s) (frame : (s.pte (BitVec.ofNat 20 i)).pageFrameNumber = pfn)
    (counted : shareCount s pfn ≠ 0) : WorkingSetOk t := by
  have count := step.shareCount_eq frame counted pfn
  rw [if_pos rfl] at count
  have described := step.described
  rw [frame] at described
  have here : p = mmPfnPpd s pfn := by rw [step.frame, frame]
  cases here
  have before := ok.mapped pfn described counted
  rcases Decidable.em (shareCount s pfn = 1) with once | more
  · have last : (s.ppd (mmPfnPpd s pfn)).shareCount = 1 := BitVec.eq_of_toNat_eq once
    obtain ⟨unrecorded, cleared⟩ := step.last last
    apply ok.page pfn step.same step.others
    · rw [cleared]
      exact ok.fits
    · rw [cleared]
      exact Nat.le_refl _
    · intro q other listed
      rw [cleared]
      apply MmWorkingSet.setEntry_other
      intro same
      rcases before with mine | ⟨noIndex, -⟩
      · exact other (listed.distinct mine same)
      · have inside := listed.inside
        have outside := noWsIndex_outside ok.fits
        omega
    · intro used
      omega
    · intro _
      exact unrecorded
  · have shared : (s.ppd (mmPfnPpd s pfn)).shareCount ≠ 1 := by
      intro one
      exact more (congrArg BitVec.toNat one)
    obtain ⟨sameSet, index, recorded⟩ := step.kept shared
    apply ok.page pfn step.same step.others
    · rw [sameSet]
      exact ok.fits
    · rw [sameSet]
    · intro q _ _
      rw [sameSet]
    · intro _
      rw [index, recorded]
      exact before.imp_left fun listed => listed.carry index (by rw [sameSet]) (by rw [sameSet])
    · intro zero
      omega

theorem PageUnmapped.total_kept {s t : MmState} {i p : Nat} (step : PageUnmapped s t i p) :
    t.workingSet.totalPageCount = s.workingSet.totalPageCount := by
  rcases Decidable.em ((s.ppd p).shareCount = 1) with last | shared
  · rw [(step.last last).2]
    rfl
  · rw [(step.kept shared).1]

/-- An unmapping clears no entry but that of the page itself. -/
theorem PageUnmapped.entry_kept {s t : MmState} {i p pfn j : Nat} (step : PageUnmapped s t i p)
    (ok : WorkingSetOk s) (frame : (s.pte (BitVec.ofNat 20 i)).pageFrameNumber = pfn)
    (counted : shareCount s pfn ≠ 0) (inside : j < s.workingSet.totalPageCount)
    (other : (s.workingSet.wsPages j).present = true → (s.workingSet.wsPages j).pageDescriptor ≠ p) :
    t.workingSet.wsPages j = s.workingSet.wsPages j := by
  have described := step.described
  rw [frame] at described
  have here : p = mmPfnPpd s pfn := by rw [step.frame, frame]
  cases here
  rcases Decidable.em ((s.ppd (mmPfnPpd s pfn)).shareCount = 1) with last | shared
  · rw [(step.last last).2]
    apply MmWorkingSet.setEntry_other
    rintro rfl
    rcases ok.mapped pfn described counted with mine | ⟨noIndex, -⟩
    · exact other mine.present mine.back
    · have outside := noWsIndex_outside ok.fits
      omega
  · rw [(step.kept shared).1]

theorem WorkingSetOk.setPte {s : MmState} (ok : WorkingSetOk s) (i : BitVec 20) (p : Mmpte) :
    WorkingSetOk (s.setPte i p) where
  fits := ok.fits
  mapped f inside used := (ok.mapped f inside used).imp_left fun h => ⟨h.inside, h.present, h.back⟩
  unmapped := ok.unmapped

/-! Runs of the calls and of the faults. -/

inductive PagingOp
  | mapping (op : MappingOp)
  | mmTrimPage (virtualAddress : BitVec 32)
  | mmAccessFault (virtualAddress : BitVec 32) (writeFault : Bool)
  | mmViewFault (virtualAddress : BitVec 32) (writeFault : Bool) (cached : Option (BitVec 32))
      (protection : BitVec 32) (targetMode : ProcessorMode)

def pagingStep (checked : Bool) (heap : Nat → Bool) (s : MmState) : PagingOp → Option MmState
  | .mapping op => mappingStep checked heap s op
  | .mmTrimPage va => mmTrimPage checked s va
  | .mmAccessFault va w => mmAccessFault checked s va w
  | .mmViewFault va w cached protection mode => mmViewFault checked s va w cached protection mode

/-- The frames whose PTEs an unmapping clears, in order. -/
def clearedFrames (s : MmState) (i n : Nat) : List Nat :=
  (List.range' i n).map fun k => (s.pte (BitVec.ofNat 20 k)).pageFrameNumber

def unmappedFrames (s : MmState) (virtualAddress : BitVec 32) (pageCount : Nat) : List Nat :=
  clearedFrames s (vpn (alignDown virtualAddress)).toNat pageCount

/-- No frame loses more mappings than it counts. -/
def Releasable (s : MmState) (frames : List Nat) : Prop := ∀ f ∈ frames, frames.count f ≤ shareCount s f

instance (s : MmState) (frames : List Nat) : Decidable (Releasable s frames) :=
  inferInstanceAs (Decidable (∀ f ∈ frames, _))

/-- Nothing is trimmed or brought back from trimming, and the share counts do not wrap. -/
def Untrimmed (s : MmState) : PagingOp → Prop
  | .mapping (.miMapPhysicalPages _ _ _) => True
  | .mapping (.map c) => c.firstFree s = none ∨ Room s c.frames
  | .mapping (.miUnmapPhysicalPages va n) => Releasable s (unmappedFrames s va n)
  | .mapping (.mmUnmapLockedPages mmd) => Releasable s (unmappedFrames s mmd.mappedVirtual mmd.pfnList.length)
  | .mmTrimPage _ => False
  | .mmAccessFault va _ => (s.pte (vpn va)).pteType ≠ pteTypeTrimmed
  | .mmViewFault _ _ _ _ _ => True

instance (s : MmState) : (op : PagingOp) → Decidable (Untrimmed s op)
  | .mapping (.miMapPhysicalPages _ _ _) => isTrue trivial
  | .mapping (.map c) => inferInstanceAs (Decidable (c.firstFree s = none ∨ Room s c.frames))
  | .mapping (.miUnmapPhysicalPages va n) => inferInstanceAs (Decidable (Releasable s (unmappedFrames s va n)))
  | .mapping (.mmUnmapLockedPages mmd) =>
    inferInstanceAs (Decidable (Releasable s (unmappedFrames s mmd.mappedVirtual mmd.pfnList.length)))
  | .mmTrimPage _ => isFalse fun h => h
  | .mmAccessFault va _ => inferInstanceAs (Decidable ((s.pte (vpn va)).pteType ≠ pteTypeTrimmed))
  | .mmViewFault _ _ _ _ _ => isTrue trivial

theorem mapPages_workingSetOk {heap : Nat → Bool} {add : Bool} {mode : ProcessorMode} {i : Nat}
    {pfns : List Nat} {s t : MmState} {replaced : List Mmpte}
    (h : mapPages heap add mode i pfns s = some (replaced, t)) (ok : WorkingSetOk s)
    (room : Room s pfns) : WorkingSetOk t := by
  induction pfns generalizing i s replaced with
  | nil =>
    cases Option.some.inj h
    exact ok
  | cons pfn pfns ih =>
    simp only [mapPages, Option.bind_eq_bind, Option.bind_eq_some_iff] at h
    obtain ⟨s₁, first, ⟨old, t'⟩, rest, last⟩ := h
    cases Option.some.inj last
    have step := mapPage_inv first
    have one := room.head
    exact ih rest (step.workingSetOk ok one) (room.tail (step.shareCount_eq one))

theorem miMapPages_workingSetOk {i : Nat} {pfns : List Nat} {s t : MmState}
    (h : miMapPages i pfns s = some t) (ok : WorkingSetOk s) : WorkingSetOk t := by
  induction pfns generalizing i s with
  | nil =>
    cases Option.some.inj h
    exact ok
  | cons pfn pfns ih =>
    simp only [miMapPages, Option.bind_eq_bind, Option.bind_eq_some_iff] at h
    obtain ⟨s₁, first, rest⟩ := h
    obtain ⟨-, rfl⟩ := writePte_inv first
    exact ih rest (ok.setPte _ _)

/-- The frames still to come are read from PTEs that the first unmapping leaves alone. -/
theorem clearedFrames_step {s t : MmState} {i n p : Nat} (step : PageUnmapped s t i p)
    (inTable : ∀ j < n, i + 1 + j < pageTableEntries) :
    clearedFrames s i (n + 1) =
      (s.pte (BitVec.ofNat 20 i)).pageFrameNumber :: clearedFrames t (i + 1) n := by
  rw [clearedFrames, List.range'_succ, List.map_cons]
  congr 1
  apply List.map_congr_left
  intro k member
  obtain ⟨low, high⟩ := List.mem_range'_1.mp member
  have here := step.inTable
  have there := inTable (k - (i + 1)) (by omega)
  rw [step.pte_other (ofNat_ne here (by omega) (by omega))]

theorem Releasable.head {s : MmState} {pfn : Nat} {pfns : List Nat} (ok : Releasable s (pfn :: pfns)) :
    shareCount s pfn ≠ 0 := by
  have first := ok pfn (by simp)
  rw [List.count_cons_self] at first
  omega

theorem Releasable.tail {s t : MmState} {pfn : Nat} {pfns : List Nat} (ok : Releasable s (pfn :: pfns))
    (shared : ∀ f, shareCount t f + (if f = pfn then 1 else 0) = shareCount s f) : Releasable t pfns := by
  intro f member
  have before := ok f (List.mem_cons_of_mem _ member)
  have now := shared f
  rw [List.count_cons] at before
  rcases Decidable.em (f = pfn) with rfl | other
  · simp at before now
    omega
  · have apart : (pfn == f) = false := by simp [Ne.symm other]
    simp only [apart] at before
    rw [if_neg other] at now
    omega

/-- The entries of pages that are not unmapped stay as they are. -/
structure EntriesKept (s t : MmState) (frames : List Nat) : Prop where
  total : t.workingSet.totalPageCount = s.workingSet.totalPageCount
  entry : ∀ j < s.workingSet.totalPageCount,
    (∀ f ∈ frames, (s.workingSet.wsPages j).present = true →
      (s.workingSet.wsPages j).pageDescriptor ≠ mmPfnPpd s f) →
    t.workingSet.wsPages j = s.workingSet.wsPages j

theorem unmapPages_workingSetOk {checked : Bool} {i n : Nat} {s t : MmState}
    (h : unmapPages checked i n s = some t) (ok : WorkingSetOk s)
    (releasable : Releasable s (clearedFrames s i n)) :
    WorkingSetOk t ∧ EntriesKept s t (clearedFrames s i n) := by
  induction n generalizing i s with
  | zero =>
    cases Option.some.inj h
    exact ⟨ok, rfl, fun _ _ _ => rfl⟩
  | succ n ih =>
    have inTable := unmapPages_inTable h
    simp only [unmapPages, Option.bind_eq_bind, Option.bind_eq_some_iff] at h
    obtain ⟨s₁, first, rest⟩ := h
    have step := unmapPage_inv first
    have later : ∀ j < n, i + 1 + j < pageTableEntries := by
      intro j less
      have := inTable (j + 1) (by omega)
      omega
    rw [clearedFrames_step step later] at releasable ⊢
    have counted := releasable.head
    have shared := step.shareCount_eq rfl counted
    obtain ⟨okAfter, kept⟩ := ih rest (step.workingSetOk ok rfl counted) (releasable.tail shared)
    refine ⟨okAfter, kept.total.trans step.total_kept, ?_⟩
    intro j inside others
    have first : s₁.workingSet.wsPages j = s.workingSet.wsPages j := by
      apply step.entry_kept ok rfl counted inside
      exact others _ (List.mem_cons_self ..)
    rw [kept.entry j (by rw [step.total_kept]; exact inside), first]
    intro f member
    rw [first, step.same.ppd_eq]
    exact others f (List.mem_cons_of_mem _ member)

/-- A fault on a view changes its PTE at most, to a valid one. -/
theorem mmViewFault_changes {checked : Bool} {s t : MmState} {va : BitVec 32} {w : Bool}
    {cached : Option (BitVec 32)} {protection : BitVec 32} {mode : ProcessorMode}
    (h : mmViewFault checked s va w cached protection mode = some t) :
    t = s ∨ ∃ new : Mmpte, new.valid = true ∧ t = s.setPte (vpn va) new := by
  unfold mmViewFault at h
  dsimp only at h
  split at h
  · exact absurd h (by simp)
  · split at h
    · exact absurd h (by simp)
    · cases cached with
      | none =>
        cases checked with
        | true => exact absurd h (by simp)
        | false => exact .inl (Option.some.inj h).symm
      | some buffer =>
        dsimp only at h
        split at h
        · exact absurd h (by simp)
        · exact .inr ⟨_, by simp [Mmpte.valid], (Option.some.inj h).symm⟩

theorem mmViewFault_workingSetOk {checked : Bool} {s t : MmState} {va : BitVec 32} {w : Bool}
    {cached : Option (BitVec 32)} {protection : BitVec 32} {mode : ProcessorMode}
    (h : mmViewFault checked s va w cached protection mode = some t) (ok : WorkingSetOk s) :
    WorkingSetOk t := by
  obtain rfl | ⟨new, -, rfl⟩ := mmViewFault_changes h
  · exact ok
  · exact ok.setPte _ _

theorem pagingStep_ok {checked : Bool} {heap : Nat → Bool} {s t : MmState} {op : PagingOp}
    (ok : WorkingSetOk s)
    (step : Guarded Untrimmed (fun s op t => pagingStep checked heap s op = some t) s op t) :
    WorkingSetOk t := by
  obtain ⟨untrimmed, step⟩ := step
  cases op with
  | mapping op =>
    cases op with
    | miMapPhysicalPages va pa n => exact miMapPages_workingSetOk step ok
    | map c =>
      obtain ⟨r, code, rfl⟩ := Option.map_eq_some_iff.mp step
      obtain ⟨start, pages, scan, ⟨-, -, same⟩ | ⟨virtual, found, mapped⟩⟩ := c.run_inv code
      · rw [same]
        exact ok
      · have first : c.firstFree s = some virtual := by
          rw [MapCall.firstFree, scan]
          exact (findFree_iff ..).mpr found
        have room : Room s c.frames := untrimmed.resolve_left (by simp [first])
        exact mapPages_workingSetOk mapped ok room
    | miUnmapPhysicalPages va n => exact (unmapPages_workingSetOk step ok untrimmed).1
    | mmUnmapLockedPages mmd =>
      simp only [pagingStep, mappingStep, mmUnmapLockedPages, Option.bind_eq_bind, Option.map_eq_some_iff,
        Option.bind_eq_some_iff] at step
      obtain ⟨r, ⟨s₁, code, last⟩, rfl⟩ := step
      cases Option.some.inj last
      exact (unmapPages_workingSetOk code ok untrimmed).1
  | mmTrimPage va => exact absurd untrimmed (fun h => h)
  | mmAccessFault va w =>
    have present : (s.pte (vpn va)).pteType ≠ pteTypeTrimmed := untrimmed
    simp [pagingStep, mmAccessFault, present] at step
  | mmViewFault va w cached protection mode => exact mmViewFault_workingSetOk step ok

/-- The recorded pages and the entries of the working set point at each other, and an unmapping clears
no entry but those of the pages it unmaps. -/
structure Consistent (checked : Bool) (s : MmState) : Prop where
  recorded : ∀ f < s.physicalMemoryPages, (s.ppd (mmPfnPpd s f)).belongsToSystemWorkingSet = true →
    InWorkingSet s (mmPfnPpd s f)
  distinct : ∀ f < s.physicalMemoryPages, ∀ g < s.physicalMemoryPages,
    (s.ppd (mmPfnPpd s f)).belongsToSystemWorkingSet = true →
    (s.ppd (mmPfnPpd s g)).belongsToSystemWorkingSet = true →
    (s.ppd (mmPfnPpd s f)).u1 = (s.ppd (mmPfnPpd s g)).u1 → f = g
  unmapped : ∀ va n t, Releasable s (unmappedFrames s va n) → miUnmapPhysicalPages checked s va n = some t →
    EntriesKept s t (unmappedFrames s va n)

theorem WorkingSetOk.consistent {s : MmState} (checked : Bool) (ok : WorkingSetOk s) : Consistent checked s := by
  have recorded : ∀ f < s.physicalMemoryPages, (s.ppd (mmPfnPpd s f)).belongsToSystemWorkingSet = true →
      InWorkingSet s (mmPfnPpd s f) := by
    intro f inside belongs
    rcases Decidable.em (shareCount s f = 0) with unused | used
    · exact absurd (belongs.symm.trans (ok.unmapped f inside unused)) (by simp)
    · rcases ok.mapped f inside used with listed | ⟨-, unrecorded⟩
      · exact listed
      · exact absurd (belongs.symm.trans unrecorded) (by simp)
  constructor
  · exact recorded
  · intro f hf g hg first second same
    exact mmPfnPpd_injective s ((recorded f hf first).distinct (recorded g hg second) same)
  · intro va n t releasable code
    exact (unmapPages_workingSetOk code ok releasable).2

theorem working_set_consistent {checked : Bool} {heap : Nat → Bool} {s t : MmState} {ops : List PagingOp}
    (initial : WorkingSetOk s)
    (run : Run (Guarded Untrimmed fun s op t => pagingStep checked heap s op = some t) s ops t) :
    Consistent checked t :=
  (run.invariant (I := WorkingSetOk) pagingStep_ok initial).consistent checked

/-- A machine that has just come up: pages 0 and 1 are in the working set, pages 2 and 3 are not mapped. -/
def twoInSet : MmState where
  physicalMemoryPages := 4
  mmPpdDatabase := 1200
  ppd := fun p => {
    u1 := if p = 1212 then 1 else 0
    u2 := 0
    pageLocation := .activeAndValid
    modified := false
    belongsToSystemWorkingSet := p = 1200 || p = 1212
    shareCount := if p = 1200 ∨ p = 1212 then 1 else 0 }
  pageListHead := fun _ => 0
  pte := fun i => if i = 0x80000 then 7 else if i = 0x80001 then 0x1007 else 0
  workingSet := {
    totalPageCount := 2
    wsPages := fun i =>
      if i = 0 then { pageDescriptor := 1200, present := true, lockedInWs := true }
      else if i = 1 then { pageDescriptor := 1212, present := true, lockedInWs := true }
      else {} }

theorem twoInSet_ok : WorkingSetOk twoInSet where
  fits := (by decide : sizeofMmworkingSetEntry * 2 < 2 ^ 32)
  mapped := by decide
  unmapped := by decide

def joinAndLeave : List PagingOp :=
  [.mapping (.map (.inRange 0xFF000000 0xFF010000 0x2000 2 true .kernelMode)),
    .mapping (.miUnmapPhysicalPages 0x80000000 1),
    .mapping (.map (.locked { flags := 1, pfnList := [0] } .kernelMode false false)),
    .mapping (.miUnmapPhysicalPages 0xFF000000 1)]

theorem joinAndLeave_consistent : ∃ t,
    Run (Guarded Untrimmed fun s op t => pagingStep true (fun _ => true) s op = some t) twoInSet joinAndLeave t ∧
      Consistent true t ∧ t.workingSet.totalPageCount = 102 := by
  have finishes : (exec (guarded Untrimmed (pagingStep true fun _ => true)) twoInSet joinAndLeave).map
      (fun t => t.workingSet.totalPageCount) = some 102 := by decide
  obtain ⟨t, run, total⟩ := Option.map_eq_some_iff.mp finishes
  exact ⟨t, guarded_run run, working_set_consistent twoInSet_ok (guarded_run run), total⟩

/-- The trimmed page stays recorded while its index has become a list link. -/
theorem trimmed_inconsistent : ∃ t,
    Run (fun s op t => pagingStep true (fun _ => true) s op = some t) twoInSet [.mmTrimPage 0x80001000] t ∧
      (t.ppd 1212).belongsToSystemWorkingSet = true ∧ ¬ InWorkingSet t 1212 := by
  have finishes : (exec (pagingStep true fun _ => true) twoInSet [.mmTrimPage 0x80001000]).map
      (fun t => ((t.ppd 1212).belongsToSystemWorkingSet, decide (InWorkingSet t 1212))) =
        some (true, false) := by decide
  obtain ⟨t, run, ends⟩ := Option.map_eq_some_iff.mp finishes
  obtain ⟨recorded, lost⟩ := Prod.mk.inj ends
  exact ⟨t, exec_run.mp run, recorded, of_decide_eq_false lost⟩

end Gr8os.Mm
