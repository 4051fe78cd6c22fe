import Gr8os.Mm.ViewRuns

/-! What a view that cannot be mapped leaves behind. -/
namespace Gr8os.Mm

/-- MmPageDatabaseLock is held or free. -/
structure LockedViews extends MmViews where
  mmPageDatabaseLock : Bool

namespace LockedViews

/-- A thread that holds the lock would wait for itself. -/
def exAcquireMutex (m : LockedViews) : Option LockedViews :=
  if m.mmPageDatabaseLock then none else some { m with mmPageDatabaseLock := true }

def exReleaseMutex (m : LockedViews) : LockedViews := { m with mmPageDatabaseLock := false }

/-- The call with its lock, the value of `*VirtualAddress` on return and what it leaves. -/
def mmMapViewOfFile (checked : Bool) (m : LockedViews) (mapping : Except Status MappedFile)
    (hMapping offsetStart offsetStartHigh viewSize : BitVec 32) (protection : BitVec 8)
    (virtualAddress : BitVec 32) (viewAllocated : Bool) : Option (Status × BitVec 32 × LockedViews) :=
  match mapping with
  | .error status => some (status, virtualAddress, m)
  | .ok file =>
    if file.goingAway then some (.deletePending, virtualAddress, m)
    else if file.strongestProtection < protection then some (.accessDenied, virtualAddress, m)
    else do
      let m ← m.exAcquireMutex
      let viewSize := alignUp viewSize
      let (found, s) ← miFindAndReserveVirtualAddressesForFileView checked m.machine virtualAddress
        file.targetMode (viewSize >>> 12).toNat
      let m := { m with machine := s }
      match found with
      | .error status => some (status, virtualAddress, m.exReleaseMutex)
      | .ok va =>
        if !viewAllocated then some (.insufficientResources, virtualAddress, m.exReleaseMutex)
        else
          let view : MappedView := {
            startOffsetInFile := (LargeInteger.setLowPart ⟨0⟩ offsetStart).setHighPart offsetStartHigh
            viewSize := viewSize
            startPte := (vpn va).toNat
            startVa := va
            hMapping := hMapping
            protection := protection &&& mmMaximumProtection }
          let s ← miInitializeViewPages m.machine view
          let m := { m with machine := s, views := m.views ++ [view] }
          some (.success, va, m.exReleaseMutex)

/-- Every PTE, the view list and `*VirtualAddress` are as before, and the lock is free. -/
structure Unchanged (m m' : LockedViews) (virtualAddress virtualAddress' : BitVec 32) : Prop where
  pte : m'.machine.pte = m.machine.pte
  views : m'.views = m.views
  address : virtualAddress' = virtualAddress
  lock : m'.mmPageDatabaseLock = false

/-- No address is chosen, and the search comes to as many free pages as the view has. -/
def Reserves (m : LockedViews) (mapping : Except Status MappedFile) (viewSize : BitVec 32) (protection : BitVec 8)
    (virtualAddress : BitVec 32) : Prop :=
  ∃ file, mapping = .ok file ∧ file.goingAway = false ∧ ¬ file.strongestProtection < protection ∧
    virtualAddress = 0 ∧ 0 < pageCountOf viewSize ∧
    (findView m.machine (pageCountOf viewSize) (miEndAddress file.targetMode) pageTableEntries
      (miStartAddress file.targetMode)).isSome = true

section failures

variable {checked : Bool} {m m' : LockedViews} {mapping : Except Status MappedFile}
  {hMapping offsetStart offsetStartHigh viewSize virtualAddress virtualAddress' : BitVec 32} {protection : BitVec 8}
  {viewAllocated : Bool} {status : Status}

/-- The lock aside, the call is that of the other model. -/
theorem mmMapViewOfFile_eq (free : m.mmPageDatabaseLock = false) :
    (mmMapViewOfFile checked m mapping hMapping offsetStart offsetStartHigh viewSize protection virtualAddress
      viewAllocated).map (fun r => (r.1, r.2.1, r.2.2.toMmViews)) =
    Mm.mmMapViewOfFile checked m.toMmViews mapping hMapping offsetStart offsetStartHigh viewSize protection
      virtualAddress viewAllocated := by
  unfold mmMapViewOfFile Mm.mmMapViewOfFile
  cases mapping with
  | error status => rfl
  | ok file =>
    dsimp only
    split
    · rfl
    · split
      · rfl
      · simp only [exAcquireMutex, free, Bool.false_eq_true, if_false, Option.bind_eq_bind, Option.bind_some,
          Option.map_bind]
        congr 1
        funext result
        obtain ⟨found, s⟩ := result
        cases found with
        | error status => rfl
        | ok va =>
          cases viewAllocated with
          | false => rfl
          | true =>
            simp only [Function.comp, Bool.not_true, Bool.false_eq_true, if_false, Option.map_bind]
            rfl

theorem refused_search {s t : MmState} {mode : ProcessorMode} {viewPages : Nat}
    (refused : miFindAndReserveVirtualAddressesForFileView checked s 0 mode viewPages = some (.error status, t)) :
    findView s viewPages (miEndAddress mode) pageTableEntries (miStartAddress mode) = none := by
  unfold miFindAndReserveVirtualAddressesForFileView at refused
  split at refused
  · exact absurd refused (by simp)
  · rw [if_neg (by simp)] at refused
    split at refused
    · assumption
    · simp at refused

theorem reserved_ne_free {p : Mmpte} (free : mmPteIsFree p = true) : reservedViewPte ≠ p := by
  rintro rfl
  exact absurd free (by decide)

/-- A reservation of free pages shows, unless it is one of no pages. -/
theorem reserved_unchanged_iff {s t : MmState} {va : BitVec 32} {n : Nat} (isFree : viewIsFree s va n = true)
    (reserved : Changed (fun _ => reservedViewPte) (vpn va).toNat n s t) : t.pte = s.pte ↔ n = 0 := by
  constructor
  · intro same
    by_contra some
    have here := reserved.here 0 (Nat.pos_of_ne_zero some)
    have before := viewIsFree_page isFree (Nat.pos_of_ne_zero some)
    rw [pageAt_zero] at before
    rw [Nat.add_zero, BitVec.ofNat_toNat, BitVec.setWidth_eq] at here
    exact reserved_ne_free before (here.symm.trans (congrFun same _))
  · rintro rfl
    funext i
    exact reserved.pte_outside fun k less => absurd less (Nat.not_lt_zero k)

theorem failed_view_unchanged_iff (free : m.mmPageDatabaseLock = false)
    (returned : mmMapViewOfFile checked m mapping hMapping offsetStart offsetStartHigh viewSize protection
      virtualAddress viewAllocated = some (status, virtualAddress', m'))
    (failed : status.isSuccess = false) :
    Unchanged m m' virtualAddress virtualAddress' ↔ ¬ m.Reserves mapping viewSize protection virtualAddress := by
  unfold mmMapViewOfFile at returned
  cases mapping with
  | error status =>
    cases Option.some.inj returned
    refine iff_of_true ⟨rfl, rfl, rfl, free⟩ ?_
    rintro ⟨file, resolved, -⟩
    exact absurd resolved (by simp)
  | ok file =>
    dsimp only at returned
    split at returned
    · rename_i away
      cases Option.some.inj returned
      refine iff_of_true ⟨rfl, rfl, rfl, free⟩ ?_
      rintro ⟨_, same, present, -⟩
      cases same
      exact absurd (away.symm.trans present) (by simp)
    · split at returned
      · rename_i weaker
        cases Option.some.inj returned
        refine iff_of_true ⟨rfl, rfl, rfl, free⟩ ?_
        rintro ⟨_, same, -, granted, -⟩
        cases same
        exact granted weaker
      · rename_i present granted
        simp only [exAcquireMutex, free, Bool.false_eq_true, if_false, Option.bind_eq_bind, Option.bind_some] at returned
        obtain ⟨⟨found, s⟩, search, rest⟩ := Option.bind_eq_some_iff.mp returned
        cases found with
        | error status =>
          cases Option.some.inj rest
          obtain ⟨-, unchanged⟩ := refused_inv search
          refine iff_of_true ⟨congrArg MmState.pte unchanged, rfl, rfl, rfl⟩ ?_
          rintro ⟨_, same, -, -, rfl, -, some⟩
          cases same
          have missed := refused_search search
          rw [pageCountOf, missed] at some
          exact absurd some (by simp)
        | ok va =>
          cases viewAllocated with
          | true =>
            simp only [Bool.not_true, Bool.false_eq_true, if_false] at rest
            obtain ⟨t, -, last⟩ := Option.bind_eq_some_iff.mp rest
            cases Option.some.inj last
            exact absurd failed (by decide)
          | false =>
            cases Option.some.inj rest
            cases found_inv search with
            | chosen given =>
              refine iff_of_true ⟨rfl, rfl, rfl, rfl⟩ ?_
              rintro ⟨_, -, -, -, absent, -⟩
              exact given absent
            | searched first reserved =>
              have found := (findView_iff ..).mpr first
              obtain ⟨-, -, -, -, isFree, -⟩ := first
              have same := reserved_unchanged_iff isFree reserved
              constructor
              · rintro unchanged ⟨_, -, -, -, -, some, -⟩
                exact absurd (same.mp unchanged.pte) (Nat.ne_of_gt some)
              · intro notReserved
                refine ⟨same.mpr ?_, rfl, rfl, rfl⟩
                by_contra some
                exact notReserved ⟨file, rfl, by simpa using present, granted, rfl, Nat.pos_of_ne_zero some,
                  by rw [pageCountOf, found]; rfl⟩

end failures

def noViews : LockedViews := { machine := unmapped, views := [], mmPageDatabaseLock := false }

theorem chosen_failure_unchanged : ∃ m',
    mmMapViewOfFile true noViews (.ok userFile) 5 0 0 0x2000 3 0x20000 false =
      some (.insufficientResources, 0x20000, m') ∧ Unchanged noViews m' 0x20000 0x20000 := by
  have finishes : (mmMapViewOfFile true noViews (.ok userFile) 5 0 0 0x2000 3 0x20000 false).map
      (fun r => (r.1, r.2.1)) = some (.insufficientResources, 0x20000) := by decide
  obtain ⟨⟨status, va, m'⟩, returned, ends⟩ := Option.map_eq_some_iff.mp finishes
  cases ends
  refine ⟨m', returned, (failed_view_unchanged_iff rfl returned (by decide)).mpr ?_⟩
  rintro ⟨-, -, -, -, absent, -⟩
  exact absurd absent (by decide)

theorem searched_failure_reserved : ∃ m',
    mmMapViewOfFile true noViews (.ok userFile) 5 0 0 0x2000 3 0 false =
      some (.insufficientResources, 0, m') ∧
    noViews.machine.pte 0x10 = 0 ∧ m'.machine.pte 0x10 = 0x600 ∧ ¬ Unchanged noViews m' 0 0 := by
  have finishes : (mmMapViewOfFile true noViews (.ok userFile) 5 0 0 0x2000 3 0 false).map
      (fun r => (r.1, r.2.1, r.2.2.machine.pte 0x10)) = some (.insufficientResources, 0, 0x600) := by decide
  obtain ⟨⟨status, va, m'⟩, returned, ends⟩ := Option.map_eq_some_iff.mp finishes
  simp only [Prod.mk.injEq] at ends
  obtain ⟨rfl, rfl, reserved⟩ := ends
  refine ⟨m', returned, rfl, reserved, ?_⟩
  intro unchanged
  rw [unchanged.pte] at reserved
  exact absurd reserved (by decide)

end LockedViews

end Gr8os.Mm
