import Gr8os.Ex.Heap
import Gr8os.Mm.WorkingSet

/-! What is left of a working set that a page was to be added to. -/
namespace Gr8os.Mm

open Ex

/-- The two fields that change. An array that could not be enlarged is a null pointer. -/
structure WorkingSetFields where
  totalPageCount : Nat
  wsPages : Option (Nat → MmWorkingSetEntry)

def MmWorkingSet.fields (w : MmWorkingSet) : WorkingSetFields := ⟨w.totalPageCount, some w.wsPages⟩

namespace WorkingSetFields

/-- The index that is returned, and the fields on return; `heap` tells which sizes have room. -/
def miAddPageToWorkingSet (heap : Nat → Bool) (w : MmWorkingSet) (ppd : Nat) :
    Option (BitVec 32 × WorkingSetFields) :=
  let entry : MmWorkingSetEntry := { pageDescriptor := ppd, present := true, lockedInWs := true }
  match w.freeEntry with
  | some i => some (BitVec.ofNat 32 i, (w.setEntry i entry).fields)
  | none =>
    if grows heap w then
      match w.grow.freeEntry with
      | some i => some (BitVec.ofNat 32 i, (w.grow.setEntry i entry).fields)
      | none => none
    else some (-1, ⟨w.totalPageCount + mmWorkingSetIncrement, none⟩)

end WorkingSetFields

/-- One slot is taken that was not in use, and no other slot changes. -/
structure SlotTaken (w v : MmWorkingSet) (i ppd : Nat) : Prop where
  inside : i < v.totalPageCount
  unused : i < w.totalPageCount → (w.wsPages i).present = false
  describes : v.wsPages i = { pageDescriptor := ppd, present := true, lockedInWs := true }
  larger : w.totalPageCount ≤ v.totalPageCount
  others : ∀ j < w.totalPageCount, j ≠ i → v.wsPages j = w.wsPages j
  added : ∀ j < v.totalPageCount, w.totalPageCount ≤ j → j ≠ i → (v.wsPages j).present = false

/-- The page is added, or nothing has changed. -/
def AddsAtomically (heap : Nat → Bool) (w : MmWorkingSet) (ppd : Nat) : Prop :=
  ∃ index f, WorkingSetFields.miAddPageToWorkingSet heap w ppd = some (index, f) ∧
    (index = -1 → f = w.fields) ∧
    (index ≠ -1 → ∃ v : MmWorkingSet, f = v.fields ∧ SlotTaken w v index.toNat ppd)

/-- The array is a block of the kernel heap. -/
def MmWorkingSet.InHeap (w : MmWorkingSet) : Prop := sizeofMmworkingSetEntry * w.totalPageCount ≤ expHeapSize

section growth

variable {heap : Nat → Bool} {w : MmWorkingSet} {ppd i : Nat}

theorem freeEntry_none : w.freeEntry = none ↔ ∀ j < w.totalPageCount, (w.wsPages j).present = true := by
  simp [MmWorkingSet.freeEntry]

theorem grow_freeEntry (full : w.freeEntry = none) : w.grow.freeEntry = some w.totalPageCount := by
  rw [MmWorkingSet.freeEntry, List.find?_range_eq_some]
  have larger : w.totalPageCount < w.grow.totalPageCount := Nat.lt_add_of_pos_right (by decide)
  have new : w.grow.wsPages w.totalPageCount = {} := if_pos ⟨Nat.le_refl _, larger⟩
  refine ⟨by rw [new]; rfl, List.mem_range.mpr larger, ?_⟩
  intro j less
  rw [MmWorkingSet.grow_old w less, freeEntry_none.mp full j less]
  rfl

theorem setEntry_slotTaken {v : MmWorkingSet} (free : v.freeEntry = some i)
    (larger : w.totalPageCount ≤ v.totalPageCount) (old : ∀ j < w.totalPageCount, v.wsPages j = w.wsPages j)
    (new : ∀ j < v.totalPageCount, w.totalPageCount ≤ j → (v.wsPages j).present = false) :
    SlotTaken w (v.setEntry i { pageDescriptor := ppd, present := true, lockedInWs := true }) i ppd := by
  obtain ⟨inside, unused⟩ := MmWorkingSet.freeEntry_inv free
  constructor
  · exact inside
  · intro less
    rw [← old i less]
    exact unused
  · exact MmWorkingSet.setEntry_here ..
  · exact larger
  · intro j less other
    rw [MmWorkingSet.setEntry_other _ _ other, old j less]
  · intro j less past other
    rw [MmWorkingSet.setEntry_other _ _ other]
    exact new j less past

/-- Where the page is added, this is what the mapping calls go on with. -/
theorem fields_of_added {v : MmWorkingSet} (added : miAddPageToWorkingSet heap w ppd = some (i, v)) :
    WorkingSetFields.miAddPageToWorkingSet heap w ppd = some (BitVec.ofNat 32 i, v.fields) := by
  unfold miAddPageToWorkingSet at added
  unfold WorkingSetFields.miAddPageToWorkingSet
  cases free : w.freeEntry with
  | some j =>
    simp only [free, Option.some.injEq, Prod.mk.injEq] at added ⊢
    obtain ⟨rfl, rfl⟩ := added
    exact ⟨rfl, rfl⟩
  | none =>
    simp only [free, grow_freeEntry free] at added ⊢
    split at added
    · rename_i room
      cases Option.some.inj added
      rw [if_pos room]
    · exact absurd added (by simp)

theorem fields_of_failed (failed : miAddPageToWorkingSet heap w ppd = none) :
    WorkingSetFields.miAddPageToWorkingSet heap w ppd =
      some (-1, ⟨w.totalPageCount + mmWorkingSetIncrement, none⟩) := by
  unfold miAddPageToWorkingSet at failed
  unfold WorkingSetFields.miAddPageToWorkingSet
  cases free : w.freeEntry with
  | some j => simp [free] at failed
  | none =>
    simp only [free, grow_freeEntry free] at failed ⊢
    split at failed
    · exact absurd failed (by simp)
    · rename_i full
      rw [if_neg full]

theorem atomic_of_added {v : MmWorkingSet} (added : miAddPageToWorkingSet heap w ppd = some (i, v))
    (small : i < 2 ^ 32 - 1) (taken : SlotTaken w v i ppd) : AddsAtomically heap w ppd := by
  have top : (-1 : BitVec 32).toNat = 2 ^ 32 - 1 := by decide
  have value : (BitVec.ofNat 32 i).toNat = i := by
    rw [BitVec.toNat_ofNat]
    omega
  refine ⟨_, _, fields_of_added added, ?_, ?_⟩
  · intro failed
    rw [← BitVec.toNat_inj, top, value] at failed
    omega
  · intro _
    exact ⟨v, rfl, value.symm ▸ taken⟩

theorem not_atomic_of_failed (failed : miAddPageToWorkingSet heap w ppd = none) : ¬ AddsAtomically heap w ppd := by
  rintro ⟨index, f, code, unchanged, -⟩
  rw [fields_of_failed failed] at code
  cases Option.some.inj code
  exact absurd (congrArg WorkingSetFields.wsPages (unchanged rfl)) (by simp [MmWorkingSet.fields])

theorem MmWorkingSet.InHeap.grows_eq (inHeap : w.InHeap) (heap : Nat → Bool) :
    grows heap w = heap (sizeofMmworkingSetEntry * (w.totalPageCount + mmWorkingSetIncrement)) := by
  have bound : 8 * w.totalPageCount ≤ 0x1000000 := inHeap
  have small : sizeofMmworkingSetEntry * w.grow.totalPageCount < 2 ^ 32 := by
    change 8 * (w.totalPageCount + 100) < 2 ^ 32
    omega
  simp only [grows, small, decide_true, Bool.true_and]
  rfl

end growth

/-- An array with no free slot. -/
def fullSet : MmWorkingSet where
  totalPageCount := 1
  wsPages := fun _ => { pageDescriptor := 1200, present := true, lockedInWs := true }

theorem fullSet_inHeap : fullSet.InHeap := (by decide : sizeofMmworkingSetEntry * 1 ≤ expHeapSize)

end Gr8os.Mm
