import Gr8os.Mm.ViewPages

/-! Which PTEs stay in use, and the views that are mapped over runs. -/
namespace Gr8os.Mm

open Runs Partial

/-! PTEs that stay in use. -/

section Used

variable {checked : Bool} {heap : Nat → Bool} {s t : MmState} {i : BitVec 20}

theorem used_setPte {p : Mmpte} {j : BitVec 20} (written : mmPteIsFree p = false)
    (used : mmPteIsFree (s.pte i) = false) : mmPteIsFree ((s.setPte j p).pte i) = false := by
  change mmPteIsFree (if i = j then p else s.pte i) = false
  split
  · exact written
  · exact used

theorem mapPages_used {add : Bool} {mode : ProcessorMode} {k : Nat} {pfns : List Nat} {replaced : List Mmpte}
    (h : mapPages heap add mode k pfns s = some (replaced, t)) (used : mmPteIsFree (s.pte i) = false) :
    mmPteIsFree (t.pte i) = false := by
  induction pfns generalizing k s replaced with
  | nil =>
    cases Option.some.inj h
    exact used
  | cons pfn pfns ih =>
    simp only [mapPages, Option.bind_eq_bind, Option.bind_eq_some_iff] at h
    obtain ⟨s₁, first, ⟨old, t'⟩, rest, last⟩ := h
    cases Option.some.inj last
    apply ih rest
    rw [(mapPage_inv first).pte]
    exact used_setPte (validKernelPte_not_free pfn) used

theorem miMapPages_used {k : Nat} {pfns : List Nat} (h : miMapPages k pfns s = some t)
    (used : mmPteIsFree (s.pte i) = false) : mmPteIsFree (t.pte i) = false := by
  induction pfns generalizing k s with
  | nil =>
    cases Option.some.inj h
    exact used
  | cons pfn pfns ih =>
    simp only [miMapPages, Option.bind_eq_bind, Option.bind_eq_some_iff] at h
    obtain ⟨s₁, first, rest⟩ := h
    obtain ⟨inTable, rfl⟩ := writePte_inv first
    exact ih rest (used_setPte (validKernelPte_not_free pfn) used)

theorem MapCall.used {c : MapCall} {r : MapResult} (h : c.run heap s = some r)
    (used : mmPteIsFree (s.pte i) = false) : mmPteIsFree (r.state.pte i) = false := by
  obtain ⟨start, pages, -, ⟨-, -, same⟩ | ⟨virtual, -, mapped⟩⟩ := c.run_inv h
  · rw [same]
    exact used
  · exact mapPages_used mapped used

theorem mmTrimPage_used {va : BitVec 32} (h : mmTrimPage checked s va = some t)
    (used : mmPteIsFree (s.pte i) = false) : mmPteIsFree (t.pte i) = false := by
  have trimmed {u : MmState} (same : u.pte = s.pte) (p v : BitVec 32) (small : v ≤ 7) :
      mmPteIsFree (((u.setPte (vpn va) (Mmpte.setProtection (Mmpte.setPteType p pteTypeTrimmed) v))).pte i) =
        false := by
    apply used_setPte
    · apply not_free_of_type
      rw [Mmpte.pteType_setProtection _ _ small, Mmpte.pteType_setPteType _ _ (by decide)]
      decide
    · rw [same]
      exact used
  have rights (p : Mmpte) : (if p.write then mmReadwrite else mmReadonly) ≤ 7 := by
    split <;> decide
  have ends : Ends (mmTrimPage checked s va) fun u => mmPteIsFree (u.pte i) = false := by
    unfold mmTrimPage
    dsimp only
    apply Ends.ite
    · intro _
      exact .none
    · intro _
      apply Ends.ite
      · intro _
        exact .none
      · intro _
        apply Ends.ite
        · intro _
          apply Ends.bind (update_pte rfl ..)
          intro u same
          exact .bind (miChangePageLocation_pte same ..) fun w same => .some (trimmed same _ _ (rights _))
        · intro _
          exact .bind (miChangePageLocation_pte rfl ..) fun w same => .some (trimmed same _ _ (rights _))
  exact ends.of_eq h

theorem mmAccessFault_used {va : BitVec 32} {write : Bool} (h : mmAccessFault checked s va write = some t)
    (used : mmPteIsFree (s.pte i) = false) : mmPteIsFree (t.pte i) = false := by
  unfold mmAccessFault at h
  dsimp only at h
  split at h
  · exact absurd h (by simp)
  · split at h
    · exact absurd h (by simp)
    · have moved := (miChangePageLocation_pte rfl _ _).of_eq h
      rw [moved]
      exact used_setPte (not_free_of_valid (by simp [Mmpte.valid, Mmpte.setValid])) used

theorem mmViewFault_used {va : BitVec 32} {write : Bool} {cached : Option (BitVec 32)} {protection : BitVec 32}
    {mode : ProcessorMode} (h : mmViewFault checked s va write cached protection mode = some t)
    (used : mmPteIsFree (s.pte i) = false) : mmPteIsFree (t.pte i) = false := by
  obtain rfl | ⟨new, valid, rfl⟩ := mmViewFault_changes h
  · exact used
  · exact used_setPte (not_free_of_valid valid) used

/-- The PTEs that an operation clears. -/
def cleared : PagingOp → Nat × Nat
  | .mapping (.miUnmapPhysicalPages va n) => ((vpn (alignDown va)).toNat, n)
  | .mapping (.mmUnmapLockedPages mmd) => ((vpn (alignDown mmd.mappedVirtual)).toNat, mmd.pfnList.length)
  | _ => (0, 0)

theorem pagingStep_used {op : PagingOp} {k : Nat} (step : pagingStep checked heap s op = some t)
    (inTable : k < pageTableEntries) (apart : k < (cleared op).1 ∨ (cleared op).1 + (cleared op).2 ≤ k)
    (used : mmPteIsFree (s.pte (BitVec.ofNat 20 k)) = false) :
    mmPteIsFree (t.pte (BitVec.ofNat 20 k)) = false := by
  cases op with
  | mapping op =>
    cases op with
    | miMapPhysicalPages va pa n => exact miMapPages_used step used
    | map c =>
      obtain ⟨r, code, rfl⟩ := Option.map_eq_some_iff.mp step
      exact c.used code used
    | miUnmapPhysicalPages va n =>
      rw [unmapPages_outside step inTable apart]
      exact used
    | mmUnmapLockedPages mmd =>
      simp only [pagingStep, mappingStep, mmUnmapLockedPages, Option.bind_eq_bind, Option.map_eq_some_iff,
        Option.bind_eq_some_iff] at step
      obtain ⟨r, ⟨s₁, code, last⟩, rfl⟩ := step
      cases Option.some.inj last
      rw [unmapPages_outside code inTable apart]
      exact used
  | mmTrimPage va => exact mmTrimPage_used step used
  | mmAccessFault va write => exact mmAccessFault_used step used
  | mmViewFault va write cached protection mode => exact mmViewFault_used step used

end Used

/-! Runs. -/

inductive ViewOp
  | paging (op : PagingOp)
  | mmMapViewOfFile (mapping : Except Status MappedFile)
      (hMapping offsetStart offsetStartHigh viewSize : BitVec 32) (protection : BitVec 8)
      (virtualAddress : BitVec 32) (viewAllocated : Bool)

def viewStep (checked : Bool) (heap : Nat → Bool) (m : MmViews) : ViewOp → Option MmViews
  | .paging op => (pagingStep checked heap m.machine op).map fun s => { m with machine := s }
  | .mmMapViewOfFile mapping hMapping offset offsetHigh viewSize protection va allocated =>
    (mmMapViewOfFile checked m mapping hMapping offset offsetHigh viewSize protection va allocated).map
      fun r => r.2.2

/-- An address that the call chooses, no page at all, or an address that it refuses. -/
def NotChosen (s : MmState) (mode : ProcessorMode) (startAddress : BitVec 32) (viewPages : Nat) : Prop :=
  startAddress = 0 ∨ viewPages = 0 ∨ startAddress < miStartAddress mode ∨ miEndAddress mode ≤ startAddress ∨
    rangeIsFree s (pageAt startAddress viewPages) viewPages startAddress = false

/-- No page of a view is unmapped, and no view with pages is put at a chosen address. -/
def KeepsViews (m : MmViews) : ViewOp → Prop
  | .paging op => ∀ v ∈ m.views, ∀ j < v.pages,
      v.startPte + j < (cleared op).1 ∨ (cleared op).1 + (cleared op).2 ≤ v.startPte + j
  | .mmMapViewOfFile (.ok file) _ _ _ viewSize _ va _ =>
    NotChosen m.machine file.targetMode va (pageCountOf viewSize)
  | .mmMapViewOfFile (.error _) _ _ _ _ _ _ _ => True

instance (s : MmState) (mode : ProcessorMode) (va : BitVec 32) (n : Nat) : Decidable (NotChosen s mode va n) :=
  inferInstanceAs (Decidable (_ ∨ _))

instance (m : MmViews) : (op : ViewOp) → Decidable (KeepsViews m op)
  | .paging _ => inferInstanceAs (Decidable (∀ v ∈ m.views, ∀ j < v.pages, _))
  | .mmMapViewOfFile (.ok file) _ _ _ viewSize _ va _ =>
    inferInstanceAs (Decidable (NotChosen m.machine file.targetMode va (pageCountOf viewSize)))
  | .mmMapViewOfFile (.error _) _ _ _ _ _ _ _ => isTrue trivial

theorem Taken.carry {m : MmViews} {s : MmState} (taken : Taken m)
    (used : ∀ i, mmPteIsFree (m.machine.pte i) = false → mmPteIsFree (s.pte i) = false) :
    Taken { m with machine := s } := by
  intro v member j inside
  obtain ⟨inTable, here⟩ := taken v member j inside
  exact ⟨inTable, used _ here⟩

theorem Found.pages_of_notChosen {s t : MmState} {mode : ProcessorMode} {n : Nat} {startAddress va : BitVec 32}
    (h : Found s mode n startAddress va t) (allowed : NotChosen s mode startAddress n) :
    n = 0 ∨ FirstRun s n (miStartAddress mode) (miEndAddress mode) pageTableEntries va ∧
      Changed (fun _ => reservedViewPte) (vpn va).toNat n s t := by
  cases h with
  | chosen given low high free =>
    rcases allowed with zero | empty | below | above | taken
    · exact absurd zero given
    · exact .inl empty
    · exact absurd below (BitVec.not_lt.mpr low)
    · exact absurd high (BitVec.not_lt.mpr above)
    · exact absurd (free.symm.trans taken) (by simp)
  | searched first reserved => exact .inr ⟨first, reserved⟩

theorem Viewed.taken {m m' : MmViews} {file : MappedFile} {hMapping viewSize startAddress va : BitVec 32}
    {protection : BitVec 8} {s : MmState} {view : MappedView} (taken : Taken m)
    (h : Viewed m m' file hMapping viewSize protection startAddress va s view)
    (allowed : NotChosen m.machine file.targetMode startAddress (pageCountOf viewSize)) : Taken m' := by
  have searched := h.found.pages_of_notChosen allowed
  intro v member j inside
  rw [h.views] at member
  rcases List.mem_append.mp member with old | new
  · obtain ⟨inTable, used⟩ := taken v old j inside
    refine ⟨inTable, ?_⟩
    rw [h.initialized.pte_outside, h.found.used used]
    · exact used
    · rintro k less same
      rcases searched with empty | ⟨⟨-, -, -, -, free, -⟩, -⟩
      · omega
      · rw [same, viewIsFree_page free less] at used
        exact absurd used (by simp)
  · cases List.mem_singleton.mp new
    rw [h.first]
    rw [h.pages] at inside
    refine ⟨h.initialized.inTable j inside, ?_⟩
    rcases searched with empty | ⟨-, reserved⟩
    · omega
    · rw [h.initialized.here j inside, reserved.here j inside]
      apply not_free_of_type
      rw [viewPte_type, reservedViewPte_type]
      decide

theorem viewStep_taken {checked : Bool} {heap : Nat → Bool} {m m' : MmViews} {op : ViewOp} (taken : Taken m)
    (step : Guarded KeepsViews (fun m op m' => viewStep checked heap m op = some m') m op m') : Taken m' := by
  obtain ⟨keeps, step⟩ := step
  cases op with
  | paging op =>
    obtain ⟨s, code, rfl⟩ := Option.map_eq_some_iff.mp step
    intro v member j inside
    obtain ⟨inTable, used⟩ := taken v member j inside
    exact ⟨inTable, pagingStep_used code inTable (keeps v member j inside) used⟩
  | mmMapViewOfFile mapping hMapping offset offsetHigh viewSize protection va allocated =>
    obtain ⟨⟨status, address, m''⟩, code, rfl⟩ := Option.map_eq_some_iff.mp step
    cases mapping with
    | error status =>
      cases Option.some.inj code
      exact taken
    | ok file =>
      rcases mmMapViewOfFile_inv code with ⟨-, rfl | ⟨found, s, searched, rfl⟩⟩ | ⟨s, view, viewed⟩
      · exact taken
      · apply taken.carry
        intro i used
        rw [searched.used used]
        exact used
      · exact viewed.taken taken keeps

theorem view_mapped_iff {checked : Bool} {heap : Nat → Bool} {m₀ m m' : MmViews} {ops : List ViewOp}
    {file : MappedFile} {hMapping offset offsetHigh viewSize startAddress va : BitVec 32}
    {protection : BitVec 8} {allocated : Bool} (fresh : m₀.views = [])
    (run : Run (Guarded KeepsViews fun m op m' => viewStep checked heap m op = some m') m₀ ops m)
    (mapped : mmMapViewOfFile checked m (.ok file) hMapping offset offsetHigh viewSize protection startAddress
      allocated = some (.success, va, m')) :
    ViewMapped m m' file.targetMode hMapping viewSize protection va ↔
      ViewFits m.machine file.targetMode hMapping viewSize startAddress := by
  have initial : Taken m₀ := by
    intro v member
    rw [fresh] at member
    exact absurd member (by simp)
  have taken := run.invariant (I := Taken) viewStep_taken initial
  obtain ⟨failed, -⟩ | ⟨s, view, viewed⟩ := mmMapViewOfFile_inv mapped
  · exact absurd rfl failed
  · exact ⟨viewed.fits, fun fits => fits.mapped taken viewed⟩

/-- A file that can be read and written, for programs. -/
def userFile : MappedFile where
  strongestProtection := 3
  targetMode := .userMode
  granted := by decide

def mapTwoPages : ViewOp := .mmMapViewOfFile (.ok userFile) 5 0 0 0x1800 1 0 true

theorem second_view_mapped : ∃ m m',
    Run (Guarded KeepsViews fun m op m' => viewStep true (fun _ => true) m op = some m') ⟨unmapped, []⟩
        [mapTwoPages] m ∧
      mmMapViewOfFile true m (.ok userFile) 6 0 0 0x1000 3 0 true = some (.success, 0x12000, m') ∧
      ViewMapped m m' .userMode 6 0x1000 3 0x12000 := by
  have finishes : (exec (guarded KeepsViews (viewStep true fun _ => true)) ⟨unmapped, []⟩ [mapTwoPages]).map
      (fun m => (findView m.machine 1 mmUsermodeAreaEnd pageTableEntries mmUsermodeArea,
        (mmMapViewOfFile true m (.ok userFile) 6 0 0 0x1000 3 0 true).map fun r => (r.1, r.2.1))) =
      some (some 0x12000, some (.success, 0x12000)) := by decide
  obtain ⟨m, run, ends⟩ := Option.map_eq_some_iff.mp finishes
  obtain ⟨found, ends⟩ := Prod.mk.inj ends
  obtain ⟨⟨status, va, m'⟩, mapped, ends⟩ := Option.map_eq_some_iff.mp ends
  cases ends
  refine ⟨m, m', guarded_run run, mapped, (view_mapped_iff rfl (guarded_run run) mapped).mpr ?_⟩
  refine ⟨by decide, .inr ⟨rfl, by decide, ?_⟩⟩
  intro va first
  cases Option.some.inj (found.symm.trans ((findView_iff ..).mpr first))
  decide

theorem chosen_view_untyped : ∃ m',
    mmMapViewOfFile true ⟨unmapped, []⟩ (.ok userFile) 5 0 0 0x1000 3 0x20000 true =
        some (.success, 0x20000, m') ∧
      ¬ ViewMapped ⟨unmapped, []⟩ m' .userMode 5 0x1000 3 0x20000 := by
  have finishes : (mmMapViewOfFile true ⟨unmapped, []⟩ (.ok userFile) 5 0 0 0x1000 3 0x20000 true).map
      (fun r => (r.1, r.2.1, (r.2.2.machine.pte 0x20).pteType)) =
      some (.success, 0x20000, pteTypeNormalOrNotmapped) := by decide
  obtain ⟨⟨status, va, m'⟩, mapped, ends⟩ := Option.map_eq_some_iff.mp finishes
  obtain ⟨rfl, rest⟩ := Prod.mk.inj ends
  obtain ⟨rfl, untyped⟩ := Prod.mk.inj rest
  refine ⟨m', mapped, ?_⟩
  intro claimed
  have typed := claimed.typed 0 (by decide)
  rw [show vpn (pageAt 0x20000 0) = 0x20 by decide, untyped] at typed
  exact absurd typed (by decide)

end Gr8os.Mm
