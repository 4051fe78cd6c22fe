import Gr8os.Hal.LowMegSearch
import Gr8os.Lib.Run
import Mathlib.Data.List.Perm.Basic

/-! Allocations and frees of runs of pages one after another. -/
namespace Gr8os.Hal

open Runs

structure PageRun where
  start : BitVec 8
  pageCount : BitVec 8
deriving DecidableEq, Repr

def PageRun.Covers (run : PageRun) (p : BitVec 8) : Prop :=
  run.start.toNat ≤ p.toNat ∧ p.toNat < run.start.toNat + run.pageCount.toNat

def PageRun.Apart (run other : PageRun) : Prop := ∀ p, run.Covers p → ¬other.Covers p

/-- The table, and the runs that were returned and are not yet freed. -/
structure LowMeg where
  table : BusyTable
  runs : List PageRun

inductive LowMegCall
  | allocate (pageCount : BitVec 8)
  | free (run : PageRun)
deriving DecidableEq, Repr

/-- A call that returns. -/
inductive LowMegStep : LowMeg → LowMegCall → LowMeg → Prop
  | allocate {s : LowMeg} {pageCount i : BitVec 8} {table : BusyTable} :
    Allocates pageCount s.table (i, table) → LowMegStep s (.allocate pageCount) ⟨table, ⟨i, pageCount⟩ :: s.runs⟩
  | free {s : LowMeg} {run : PageRun} {table : BusyTable} :
    run ∈ s.runs → halFreePhysicalLowMegPages s.table run.start run.pageCount = .ok table →
      LowMegStep s (.free run) ⟨table, s.runs.erase run⟩

/-- Runs lie in front of the last page, on pages that were free at first, and apart from each other. The rest of the
table is as it was at first. -/
structure Holds (base : BusyTable) (s : LowMeg) : Prop where
  below : ∀ run ∈ s.runs, run.start.toNat + run.pageCount.toNat ≤ 255
  free : ∀ run ∈ s.runs, ∀ p, run.Covers p → base p = .free
  apart : s.runs.Pairwise PageRun.Apart
  covered : ∀ run ∈ s.runs, ∀ p, run.Covers p → s.table p = .allocated
  uncovered : ∀ p, (∀ run ∈ s.runs, ¬run.Covers p) → s.table p = base p

theorem PageRun.Apart.symm {run other : PageRun} (apart : run.Apart other) : other.Apart run :=
  fun p there here => apart p here there

section free

variable {table t : BusyTable} {startPage pageCount i : BitVec 8} {left : Nat}

def freedRun (table : BusyTable) (run : PageRun) : BusyTable := fun p =>
  if run.start.toNat ≤ p.toNat ∧ p.toNat < run.start.toNat + run.pageCount.toNat then .free else table p

theorem freedRun_covered {run : PageRun} {p : BitVec 8} (covers : run.Covers p) : freedRun table run p = .free :=
  if_pos covers

theorem freedRun_other {run : PageRun} {p : BitVec 8} (other : ¬run.Covers p) : freedRun table run p = table p :=
  if_neg other

theorem allocatedRun_covered (run : PageRun) {p : BitVec 8} (covers : run.Covers p) :
    allocatedRun table run.start run.pageCount p = .allocated :=
  if_pos covers

theorem allocatedRun_other (run : PageRun) {p : BitVec 8} (other : ¬run.Covers p) :
    allocatedRun table run.start run.pageCount p = table p :=
  if_neg other

theorem freePages_allocated (below : i.toNat + left ≤ 255)
    (allocated : ∀ p : BitVec 8, i.toNat ≤ p.toNat → p.toNat < i.toNat + left → table p = .allocated) :
    freePages startPage pageCount left i table =
      .ok fun p => if i.toNat ≤ p.toNat ∧ p.toNat < i.toNat + left then .free else table p := by
  induction left generalizing i table with
  | zero =>
    rw [freePages]
    refine congrArg Except.ok (funext fun p => ?_)
    rw [if_neg (by omega)]
  | succ left ih =>
    have next : (i + 1).toNat = i.toNat + 1 := next_toNat (by omega)
    have here := allocated i (Nat.le_refl _) (by omega)
    rw [freePages, here]
    simp only
    rw [ih (by omega)]
    · refine congrArg Except.ok (funext fun p => ?_)
      by_cases first : p = i
      · subst first
        rw [if_neg (by omega), if_pos (by omega), Function.update_self]
      · have apart : p.toNat ≠ i.toNat := fun same => first (BitVec.eq_of_toNat_eq same)
        have same : ((i + 1).toNat ≤ p.toNat ∧ p.toNat < (i + 1).toNat + left) =
            (i.toNat ≤ p.toNat ∧ p.toNat < i.toNat + (left + 1)) := propext (by omega)
        rw [Function.update_of_ne first]
        simp only [same]
    · intro p above under
      have apart : p ≠ i := by
        rintro rfl
        omega
      rw [Function.update_of_ne apart]
      exact allocated p (by omega) (by omega)

theorem halFree_allocated {run : PageRun} (below : run.start.toNat + run.pageCount.toNat ≤ 255)
    (allocated : ∀ p, run.Covers p → table p = .allocated) :
    halFreePhysicalLowMegPages table run.start run.pageCount = .ok (freedRun table run) := by
  rw [halFreePhysicalLowMegPages, if_neg (by omega)]
  exact freePages_allocated below fun p above under => allocated p ⟨above, under⟩

end free

namespace Holds

variable {base : BusyTable} {s : LowMeg} {run : PageRun}

theorem initial (base : BusyTable) : Holds base ⟨base, []⟩ where
  below _ member := absurd member List.not_mem_nil
  free _ member := absurd member List.not_mem_nil
  apart := List.Pairwise.nil
  covered _ member := absurd member List.not_mem_nil
  uncovered _ _ := rfl

theorem not_covers (holds : Holds base s) {p : BitVec 8} (unused : s.table p = .free) (member : run ∈ s.runs) :
    ¬run.Covers p := by
  intro covers
  rw [holds.covered run member p covers] at unused
  cases unused

theorem allocate (holds : Holds base s) {pageCount i : BitVec 8} {table : BusyTable}
    (allocates : Allocates pageCount s.table (i, table)) : Holds base ⟨table, ⟨i, pageCount⟩ :: s.runs⟩ := by
  obtain ⟨⟨k, -, fits, -⟩, marked⟩ := allocates_iff.mp allocates
  change table = allocatedRun s.table i pageCount at marked
  have unused : ∀ p, PageRun.Covers ⟨i, pageCount⟩ p → s.table p = .free :=
    fun p covers => fits.free p covers.1 covers.2
  refine ⟨?_, ?_, ?_, ?_, ?_⟩
  · exact List.forall_mem_cons.mpr ⟨fits.below, holds.below⟩
  · refine List.forall_mem_cons.mpr ⟨fun p covers => ?_, holds.free⟩
    rw [← holds.uncovered p fun other member => holds.not_covers (unused p covers) member]
    exact unused p covers
  · refine List.pairwise_cons.mpr ⟨?_, holds.apart⟩
    intro other member p covers
    exact holds.not_covers (unused p covers) member
  · refine List.forall_mem_cons.mpr ⟨fun p covers => ?_, fun other member p covers => ?_⟩
    · change table p = .allocated
      rw [marked]
      exact allocatedRun_covered ⟨i, pageCount⟩ covers
    · have outside : ¬PageRun.Covers ⟨i, pageCount⟩ p := fun here => holds.not_covers (unused p here) member covers
      change table p = .allocated
      rw [marked, allocatedRun_other ⟨i, pageCount⟩ outside]
      exact holds.covered other member p covers
  · intro p outside
    obtain ⟨here, others⟩ := List.forall_mem_cons.mp outside
    change table p = base p
    rw [marked, allocatedRun_other ⟨i, pageCount⟩ here]
    exact holds.uncovered p others

theorem frees (holds : Holds base s) (member : run ∈ s.runs) :
    halFreePhysicalLowMegPages s.table run.start run.pageCount = .ok (freedRun s.table run) :=
  halFree_allocated (holds.below run member) (holds.covered run member)

theorem free_run (holds : Holds base s) (member : run ∈ s.runs) :
    Holds base ⟨freedRun s.table run, s.runs.erase run⟩ := by
  have order := List.perm_cons_erase member
  have apart := (order.pairwise_iff PageRun.Apart.symm).mp holds.apart
  obtain ⟨first, rest⟩ := List.pairwise_cons.mp apart
  refine ⟨?_, ?_, rest, ?_, ?_⟩
  · exact fun other kept => holds.below other (List.mem_of_mem_erase kept)
  · exact fun other kept => holds.free other (List.mem_of_mem_erase kept)
  · intro other kept p covers
    have outside : ¬run.Covers p := fun here => first other kept p here covers
    exact (freedRun_other outside).trans (holds.covered other (List.mem_of_mem_erase kept) p covers)
  · intro p outside
    by_cases here : run.Covers p
    · exact (freedRun_covered here).trans (holds.free run member p here).symm
    · refine (freedRun_other here).trans (holds.uncovered p fun other before => ?_)
      rcases List.mem_cons.mp (order.subset before) with rfl | kept
      · exact here
      · exact outside other kept

theorem step (holds : Holds base s) {call : LowMegCall} {t : LowMeg} (step : LowMegStep s call t) : Holds base t := by
  cases step with
  | allocate allocates => exact holds.allocate allocates
  | free member frees =>
    cases (holds.frees member).symm.trans frees
    exact holds.free_run member

theorem later (holds : Holds base s) {calls : List LowMegCall} {t : LowMeg} (taken : Run LowMegStep s calls t) :
    Holds base t :=
  taken.invariant (fun kept first => kept.step first) holds

/-- The table is what it was at first with the runs of the list allocated. -/
theorem table_eq (holds : Holds base s) {t : LowMeg} (holds' : Holds base t) (same : s.runs.Perm t.runs) :
    s.table = t.table := by
  funext p
  by_cases covered : ∃ run ∈ s.runs, run.Covers p
  · obtain ⟨run, member, covers⟩ := covered
    rw [holds.covered run member p covers, holds'.covered run (same.subset member) p covers]
  · have outside : ∀ run ∈ s.runs, ¬run.Covers p := fun run member covers => covered ⟨run, member, covers⟩
    rw [holds.uncovered p outside, holds'.uncovered p fun run member => outside run (same.mem_iff.mpr member)]

end Holds

/-- The runs share no page with each other or with what is reserved, and each can be freed. A run that is freed leaves
its pages as they were before it was allocated, and the whole table if no other run came or went. -/
structure Exchanges (base : BusyTable) (s : LowMeg) : Prop where
  apart : s.runs.Pairwise PageRun.Apart
  unreserved : ∀ run ∈ s.runs, ∀ p, run.Covers p → base p ≠ .reserved ∧ s.table p ≠ .reserved
  frees : ∀ run ∈ s.runs, ∃ table, halFreePhysicalLowMegPages s.table run.start run.pageCount = .ok table
  restores : ∀ {pageCount i : BitVec 8} {table : BusyTable} {later : List LowMegCall} {t u : LowMeg},
    Allocates pageCount s.table (i, table) → Run LowMegStep ⟨table, ⟨i, pageCount⟩ :: s.runs⟩ later t →
      LowMegStep t (.free ⟨i, pageCount⟩) u →
        (∀ p, PageRun.Covers ⟨i, pageCount⟩ p → u.table p = s.table p) ∧
          (∀ p, ¬PageRun.Covers ⟨i, pageCount⟩ p → u.table p = t.table p) ∧ (u.runs.Perm s.runs → u.table = s.table)

theorem exchanges_run {base : BusyTable} {calls : List LowMegCall} {s : LowMeg}
    (run : Run LowMegStep ⟨base, []⟩ calls s) : Exchanges base s := by
  have holds := (Holds.initial base).later run
  refine ⟨holds.apart, ?_, fun _ member => ⟨_, holds.frees member⟩, ?_⟩
  · intro run member p covers
    rw [holds.free run member p covers, holds.covered run member p covers]
    exact ⟨LowMegPage.noConfusion, LowMegPage.noConfusion⟩
  · intro pageCount i table later t u allocates rest last
    have holds' := (holds.allocate allocates).later rest
    have restored : u.runs.Perm s.runs → u.table = s.table := (holds'.step last).table_eq holds
    cases last with
    | free member frees =>
      cases (holds'.frees member).symm.trans frees
      refine ⟨fun p covers => ?_, fun p other => freedRun_other other, restored⟩
      obtain ⟨⟨k, -, fits, -⟩, -⟩ := allocates_iff.mp allocates
      exact (freedRun_covered covers).trans (fits.free p covers.1 covers.2).symm

def firstReserved : BusyTable := fun p => if p = 0 then .reserved else .free

theorem exchanges_firstReserved :
    Exchanges firstReserved ⟨Function.update firstReserved 1 .allocated, [⟨1, 1⟩]⟩ :=
  exchanges_run (.next (.allocate ⟨4, rfl⟩) (.done _))

end Gr8os.Hal
