import Gr8os.Lib.Run
import Gr8os.Lib.Slots
import Gr8os.Ob.References

/-! Handles over whole runs: an open handle stands for the object it was created for until it is closed. -/
namespace Gr8os.Ob

open Runs

/-- A dereference, with all the deletions it sets off, does not touch the handle tables. -/
def TablesKept (s t : ObjectManager) : Prop := t.handleTables = s.handleTables ∧ t.tableLocked = s.tableLocked

theorem TablesKept.trans {s t u : ObjectManager} (first : TablesKept s t) (second : TablesKept t u) : TablesKept s u :=
  ⟨second.1.trans first.1, second.2.trans first.2⟩

theorem unlink_tables (s : ObjectManager) (o : Nat) : TablesKept s (s.unlink o) := by
  unfold ObjectManager.unlink
  split
  · exact ⟨rfl, rfl⟩
  · exact ⟨rfl, rfl⟩

section tables

variable {deleteInternal : ObjectManager → Nat → Option (Status × ObjectManager)} {checked : Bool} {s t : ObjectManager}

theorem dereferenceWith_tables (deletes : ∀ {s o r}, deleteInternal s o = some r → TablesKept s r.2) {o : Nat}
    (run : dereferenceWith deleteInternal checked s o = some t) : TablesKept s t := by
  unfold dereferenceWith at run
  split at run
  · split at run
    · contradiction
    · obtain ⟨r, deleted, rfl⟩ := Option.map_eq_some_iff.mp run
      have kept := deletes deleted
      exact kept
  · cases Option.some.inj run
    exact ⟨rfl, rfl⟩

theorem dereferenceAll_tables (deletes : ∀ {s o r}, deleteInternal s o = some r → TablesKept s r.2) {ps : List Nat}
    (run : ps.foldlM (dereferenceWith deleteInternal checked) s = some t) : TablesKept s t := by
  induction ps generalizing s with
  | nil =>
    cases Option.some.inj run
    exact ⟨rfl, rfl⟩
  | cons p ps ih =>
    obtain ⟨u, first, rest⟩ := Option.bind_eq_some_iff.mp (List.foldlM_cons.symm.trans run)
    exact (dereferenceWith_tables deletes first).trans (ih rest)

end tables

theorem obpDeleteObjectInternal_tables {checked : Bool} {fuel : Nat} {s : ObjectManager} {o : Nat}
    {r : Status × ObjectManager} (run : obpDeleteObjectInternal checked fuel s o = some r) : TablesKept s r.2 := by
  induction fuel generalizing s o r with
  | zero => contradiction
  | succ fuel ih =>
    unfold obpDeleteObjectInternal at run
    split at run
    · cases Option.some.inj run
      exact ⟨rfl, rfl⟩
    · obtain ⟨t, released, rfl⟩ := Option.map_eq_some_iff.mp run
      have unlinked := unlink_tables (s.modify o fun h => { h with flags := h.flags ||| objDeleteInProgress }) o
      have kept := dereferenceAll_tables ih released
      exact unlinked.trans kept

theorem obDereferenceObject_tables {checked : Bool} {fuel : Nat} {s t : ObjectManager} {o : Nat}
    (run : obDereferenceObject checked fuel s o = some t) : TablesKept s t :=
  dereferenceWith_tables obpDeleteObjectInternal_tables run

/-- The handles that are open, each with its process and the object it was created for. -/
structure HandleUse where
  manager : ObjectManager
  opened : List (Nat × BitVec 32 × Nat)

inductive HandleCall
  | create (process o : Nat) (grantedAccess : BitVec 32)
  | close (process : Nat) (handle : BitVec 32)

def handleKey (e : Nat × BitVec 32 × Nat) : Nat × BitVec 32 := (e.1, e.2.1)

/-- A label is a call and a bound on the depth of the deletions it sets off. -/
def handleStep (checked : Bool) (w : HandleUse) (l : HandleCall × Nat) : Option HandleUse :=
  match l.1 with
  | .create process o grantedAccess =>
    (obpCreateHandle checked w.manager process o grantedAccess).map fun
      | (some handle, s) => ⟨s, (process, handle, o) :: w.opened⟩
      | (none, s) => ⟨s, w.opened⟩
  | .close process handle =>
    (obClose checked l.2 w.manager process handle).map fun r =>
      ⟨r.2, w.opened.filter fun e => handleKey e ≠ (process, handle)⟩

/-- ObClose gets a handle that is open, or one whose value it turns away before it takes the lock. -/
def ClosesOpen (w : HandleUse) (l : HandleCall × Nat) : Prop :=
  match l.1 with
  | .create _ _ _ => True
  | .close process handle => (process, handle) ∈ w.opened.map handleKey ∨ 0xFFFF < handle &&& 0xFFFFFFF

instance (w : HandleUse) (l : HandleCall × Nat) : Decidable (ClosesOpen w l) := by
  unfold ClosesOpen
  cases l.1 <;> infer_instance

/-- Tables with no handle in them, no longer than the range check of a handle admits, and no lock held. -/
structure NoHandles (s : ObjectManager) : Prop where
  unlocked : ∀ process, s.tableLocked process = false
  bound : ∀ process, (s.table process).length ≤ 0xFFFF
  empty : ∀ process, ∀ entry ∈ s.table process, entry = none

/-- A handle is one more than the index of the entry that holds its object. -/
def InTable (s : ObjectManager) (e : Nat × BitVec 32 × Nat) : Prop :=
  ∃ i entry, e.2.1 = BitVec.ofNat 32 (i + 1) ∧ (s.table e.1)[i]? = some (some entry) ∧ entry.object = e.2.2

structure HandlesOk (w : HandleUse) : Prop where
  unlocked : ∀ process, w.manager.tableLocked process = false
  bound : ∀ process, (w.manager.table process).length ≤ 0xFFFF
  distinct : (w.opened.map handleKey).Nodup
  inTable : ∀ e ∈ w.opened, InTable w.manager e

theorem handle_index {i : Nat} (small : i < 0xFFFF) : (BitVec.ofNat 32 (i + 1) - 1).toNat = i := by bv_omega

theorem handle_inRange {i : Nat} (small : i < 0xFFFF) : ¬0xFFFF < BitVec.ofNat 32 (i + 1) &&& 0xFFFFFFF := by
  have mask : (BitVec.ofNat 32 (i + 1) &&& 0xFFFFFFF).toNat = (i + 1) % 2 ^ 28 := by
    rw [BitVec.toNat_and, BitVec.toNat_ofNat]
    have low := Nat.and_two_pow_sub_one_eq_mod ((i + 1) % 2 ^ 32) 28
    exact low.trans (by omega)
  intro above
  have above : 0xFFFF < (BitVec.ofNat 32 (i + 1) &&& 0xFFFFFFF).toNat := above
  omega

theorem table_setEntry (s : ObjectManager) {process i : Nat} {entry new : Option ObjectHandle}
    (there : (s.table process)[i]? = some entry) (q : Nat) :
    (s.setEntry process i new).table q = if q = process then (s.table process).set i new else s.table q := by
  have bound : process < s.handleTables.length := by
    apply Decidable.byContradiction
    intro outside
    have none : s.table process = [] := by
      unfold ObjectManager.table
      rw [List.getD_eq_getElem?_getD, List.getElem?_eq_none (by omega)]
      rfl
    rw [none] at there
    contradiction
  unfold ObjectManager.table ObjectManager.setEntry
  simp only [List.getD_eq_getElem?_getD, List.getElem?_set]
  split
  · rename_i same
    subst same
    simp [bound, ObjectManager.table, List.getD_eq_getElem?_getD]
  · rename_i other
    rw [if_neg (fun same => other same.symm)]

theorem setLock_same {s : ObjectManager} {process : Nat} (unlocked : s.tableLocked process = false) :
    s.setLock process false = s := by
  have same : (fun p => if p = process then false else s.tableLocked p) = s.tableLocked := by
    funext p
    split
    · rename_i here
      rw [here, unlocked]
    · rfl
  unfold ObjectManager.setLock
  rw [same]

section state

variable {w : HandleUse} {e : Nat × BitVec 32 × Nat}

/-- An open handle maps to its object, and mapping it changes nothing. -/
theorem HandlesOk.maps (ok : HandlesOk w) (opened : e ∈ w.opened) :
    obpMapHandleToPointer w.manager e.1 e.2.1 0 false = some (.success, some e.2.2, w.manager) := by
  obtain ⟨i, entry, handle, there, object⟩ := ok.inTable e opened
  have small : i < 0xFFFF := by
    have inside := (List.getElem?_eq_some_iff.mp there).1
    have bound := ok.bound e.1
    omega
  have found : handleEntry w.manager e.1 e.2.1 = some (some entry) := by
    rw [handleEntry, handle, handle_index small, there]
  have unlocked := ok.unlocked e.1
  unfold obpMapHandleToPointer
  rw [if_neg (handle ▸ handle_inRange small), unlocked, found, setLock_same unlocked, ← object]
  rfl

theorem HandlesOk.createStep (ok : HandlesOk w) {checked : Bool} {process o : Nat} {grantedAccess : BitVec 32}
    {r : Option (BitVec 32) × ObjectManager}
    (run : obpCreateHandle checked w.manager process o grantedAccess = some r) :
    match r.1 with
    | some handle => HandlesOk ⟨r.2, (process, handle, o) :: w.opened⟩
    | none => r.2 = w.manager := by
  unfold obpCreateHandle at run
  split at run
  · contradiction
  split at run
  · rename_i i free
    cases Option.some.inj run
    have there : (w.manager.table process)[i]? = some none := Slots.get_of_free free
    have inside : i < (w.manager.table process).length := (List.getElem?_eq_some_iff.mp there).1
    have small : i < 0xFFFF := by
      have bound := ok.bound process
      omega
    have table := @table_setEntry w.manager process i none (some ⟨o, grantedAccess⟩) there
    -- an open handle with the new value would hold the free entry
    have fresh : (process, BitVec.ofNat 32 (i + 1)) ∉ w.opened.map handleKey := by
      intro member
      obtain ⟨e, opened, key⟩ := List.mem_map.mp member
      obtain ⟨j, entry, handle, used, _⟩ := ok.inTable e opened
      obtain ⟨sameProcess, sameHandle⟩ := Prod.mk.inj key
      rw [sameProcess] at used
      have bound : j < 0xFFFF := by
        have inside := (List.getElem?_eq_some_iff.mp used).1
        have bound := ok.bound process
        omega
      have same : j = i := by
        rw [← handle_index bound, ← handle, sameHandle, handle_index small]
      rw [same, there] at used
      cases Option.some.inj used
    refine ⟨ok.unlocked, fun q => ?_, List.nodup_cons.mpr ⟨fresh, ok.distinct⟩, fun e member => ?_⟩
    · rw [table q]
      split
      · rw [List.length_set]
        exact ok.bound process
      · exact ok.bound q
    · rcases List.mem_cons.mp member with rfl | member
      · refine ⟨i, ⟨o, grantedAccess⟩, rfl, ?_, rfl⟩
        rw [table process, if_pos rfl, List.getElem?_set_self inside]
      · obtain ⟨j, entry, handle, used, object⟩ := ok.inTable e member
        refine ⟨j, entry, handle, ?_, object⟩
        rw [table e.1]
        split
        · rename_i same
          have other : i ≠ j := by
            intro sameIndex
            rw [same, ← sameIndex, there] at used
            cases Option.some.inj used
          rw [List.getElem?_set_ne other, ← same, used]
        · exact used
  · split at run
    · contradiction
    · cases Option.some.inj run
      rfl

/-- Closing an open handle gives the lock back and clears the entry of that handle alone. -/
theorem HandlesOk.closeStep (ok : HandlesOk w) {checked : Bool} {fuel process : Nat} {handle : BitVec 32}
    {r : Status × ObjectManager} (opened : (process, handle) ∈ w.opened.map handleKey)
    (run : obClose checked fuel w.manager process handle = some r) :
    HandlesOk ⟨r.2, w.opened.filter fun e => handleKey e ≠ (process, handle)⟩ := by
  obtain ⟨e, member, key⟩ := List.mem_map.mp opened
  obtain ⟨rfl, rfl⟩ := Prod.mk.inj key
  obtain ⟨i, entry, isHandle, there, object⟩ := ok.inTable e member
  have inside : i < (w.manager.table e.1).length := (List.getElem?_eq_some_iff.mp there).1
  have small : i < 0xFFFF := by
    have bound := ok.bound e.1
    omega
  have index : (e.2.1 - 1).toNat = i := isHandle ▸ handle_index small
  have inRange : ¬0xFFFF < e.2.1 &&& 0xFFFFFFF := isHandle ▸ handle_inRange small
  have found : handleEntry w.manager e.1 e.2.1 = some (some entry) := by rw [handleEntry, index, there]
  have maps : obpMapHandleToPointer w.manager e.1 e.2.1 0 true =
      some (.success, some entry.object, w.manager.setLock e.1 true) := by
    have unlocked := ok.unlocked e.1
    unfold obpMapHandleToPointer
    rw [if_neg inRange, unlocked, found]
    rfl
  unfold obClose at run
  rw [maps, Option.bind_some] at run
  obtain ⟨t, released, deleted⟩ := Option.bind_eq_some_iff.mp run
  obtain ⟨tables, locks⟩ := obDereferenceObject_tables released
  have tableOf : ∀ q, t.table q = w.manager.table q := fun q => congrArg (List.getD · q []) tables
  let u := t.modify entry.object fun h => { h with handleCount := h.handleCount - 1 }
  have deletes : obpDeleteHandle u e.1 e.2.1 true =
      some (.success, (u.setEntry e.1 i none).setLock e.1 false) := by
    have sameEntry : handleEntry u e.1 e.2.1 = some (some entry) := by
      rw [← found, handleEntry, handleEntry]
      exact congrArg (·[(e.2.1 - 1).toNat]?) (tableOf e.1)
    unfold obpDeleteHandle
    rw [if_neg inRange, sameEntry, index]
    rfl
  cases Option.some.inj (deletes.symm.trans deleted)
  have used : (u.table e.1)[i]? = some (some entry) := (congrArg (·[i]?) (tableOf e.1)).trans there
  have table : ∀ q, ((u.setEntry e.1 i none).setLock e.1 false).table q =
      if q = e.1 then (w.manager.table e.1).set i none else w.manager.table q := by
    intro q
    have set := @table_setEntry u e.1 i (some entry) none used q
    rw [show u.table e.1 = w.manager.table e.1 from tableOf e.1, show u.table q = w.manager.table q from tableOf q] at set
    exact set
  refine ⟨fun q => ?_, fun q => ?_, ok.distinct.sublist (List.filter_sublist.map handleKey), fun f member => ?_⟩
  · change (if q = e.1 then false else t.tableLocked q) = false
    split
    · rfl
    · rename_i other
      rw [locks]
      exact (if_neg other).trans (ok.unlocked q)
  · rw [table q]
    split
    · rw [List.length_set]
      exact ok.bound e.1
    · exact ok.bound q
  · obtain ⟨member, other⟩ := List.mem_filter.mp member
    obtain ⟨j, entry', handle', used', object'⟩ := ok.inTable f member
    refine ⟨j, entry', handle', ?_, object'⟩
    rw [table f.1]
    split
    · rename_i same
      have apart : i ≠ j := by
        intro sameIndex
        have sameKey : handleKey f = (e.1, e.2.1) := by rw [handleKey, same, handle', isHandle, sameIndex]
        simp [sameKey] at other
      rw [List.getElem?_set_ne apart, ← same, used']
    · exact used'

end state

theorem handleStep_ok {checked : Bool} {w v : HandleUse} {l : HandleCall × Nat} (ok : HandlesOk w)
    (guard : ClosesOpen w l) (run : handleStep checked w l = some v) : HandlesOk v := by
  obtain ⟨call, fuel⟩ := l
  cases call with
  | create process o grantedAccess =>
    obtain ⟨⟨handle, s⟩, created, rfl⟩ := Option.map_eq_some_iff.mp run
    have after := ok.createStep created
    cases handle with
    | some handle => exact after
    | none =>
      simp only at after
      subst after
      exact ok
  | close process handle =>
    obtain ⟨r, closed, rfl⟩ := Option.map_eq_some_iff.mp run
    rcases Decidable.em ((process, handle) ∈ w.opened.map handleKey) with opened | unopened
    · exact ok.closeStep opened closed
    · have above : 0xFFFF < handle &&& 0xFFFFFFF := guard.resolve_left unopened
      have turnedAway : obClose checked fuel w.manager process handle = some (.invalidHandle, w.manager) := by
        unfold obClose obpMapHandleToPointer
        rw [if_pos above]
        rfl
      cases Option.some.inj (turnedAway.symm.trans closed)
      have same : w.opened.filter (fun e => handleKey e ≠ (process, handle)) = w.opened := by
        refine List.filter_eq_self.mpr fun e member => ?_
        simp only [ne_eq, decide_not, Bool.not_eq_eq_eq_not, Bool.not_true, decide_eq_false_iff_not]
        exact fun key => unopened (List.mem_map.mpr ⟨e, member, key⟩)
      exact same.symm ▸ ok

/-- In every run in which ObClose gets open handles: the open handles are distinct, each maps to the object it
was created for, and still does after any further call other than its own ObClose. -/
theorem open_handles_map (checked : Bool) {s : ObjectManager} (initial : NoHandles s) {w : HandleUse}
    {calls : List (HandleCall × Nat)}
    (run : Run (Guarded ClosesOpen fun w l v => handleStep checked w l = some v) ⟨s, []⟩ calls w) :
    (w.opened.map handleKey).Nodup ∧
    (∀ e ∈ w.opened, obpMapHandleToPointer w.manager e.1 e.2.1 0 false = some (.success, some e.2.2, w.manager)) ∧
    ∀ l v, Guarded ClosesOpen (fun w l v => handleStep checked w l = some v) w l v → ∀ e ∈ w.opened,
      l.1 ≠ .close e.1 e.2.1 →
      obpMapHandleToPointer v.manager e.1 e.2.1 0 false = some (.success, some e.2.2, v.manager) := by
  have start : HandlesOk ⟨s, []⟩ :=
    ⟨initial.unlocked, initial.bound, List.nodup_nil, fun _ member => absurd member List.not_mem_nil⟩
  have ok : HandlesOk w :=
    run.invariant (I := HandlesOk) (fun ok guarded => handleStep_ok ok guarded.1 guarded.2) start
  refine ⟨ok.distinct, fun e opened => ok.maps opened, fun l v guarded e opened other => ?_⟩
  refine (handleStep_ok ok guarded.1 guarded.2).maps ?_
  obtain ⟨call, fuel⟩ := l
  cases call with
  | create process o grantedAccess =>
    obtain ⟨⟨handle, t⟩, _, rfl⟩ := Option.map_eq_some_iff.mp guarded.2
    cases handle with
    | some handle => exact List.mem_cons_of_mem _ opened
    | none => exact opened
  | close process handle =>
    obtain ⟨r, _, rfl⟩ := Option.map_eq_some_iff.mp guarded.2
    refine List.mem_filter.mpr ⟨opened, ?_⟩
    simp only [ne_eq, decide_not, Bool.not_eq_eq_eq_not, Bool.not_true, decide_eq_false_iff_not]
    intro key
    obtain ⟨rfl, rfl⟩ := Prod.mk.inj key
    exact other rfl

/-- Objects with references to spare, and tables of OB_INITIAL_HANDLES entries. -/
def freshTables (processes : Nat) : ObjectManager where
  space :=
    { object := fun _ => { objectName := [], referenceCount := 9, body := .other 7 }
      obRootObjectDirectory := 0 }
  created := 3
  freed _ := false
  handleTables := List.replicate processes (List.replicate 128 none)
  tableLocked _ := false

theorem freshTables_table (processes process : Nat) :
    (freshTables processes).table process = List.replicate 128 none ∨ (freshTables processes).table process = [] := by
  unfold ObjectManager.table freshTables
  simp only [List.getD_eq_getElem?_getD, List.getElem?_replicate]
  split
  · exact .inl rfl
  · exact .inr rfl

theorem freshTables_noHandles (processes : Nat) : NoHandles (freshTables processes) := by
  refine ⟨fun _ => rfl, fun process => ?_, fun process entry member => ?_⟩
  · rcases freshTables_table processes process with full | empty
    · rw [full, List.length_replicate]
      decide
    · rw [empty]
      decide
  · rcases freshTables_table processes process with full | empty
    · exact List.eq_of_mem_replicate (full ▸ member)
    · rw [empty] at member
      contradiction

/-- The first entry is used again for another object. -/
def reusedEntry : List (HandleCall × Nat) :=
  [(.create 0 1 3, 1), (.create 0 2 3, 1), (.close 0 1, 1), (.create 0 2 1, 1)]

theorem reusedEntry_maps : ∃ w : HandleUse, w.opened = [(0, 1, 2), (0, 2, 2)] ∧
    ∀ e ∈ w.opened, obpMapHandleToPointer w.manager e.1 e.2.1 0 false = some (.success, some e.2.2, w.manager) := by
  have finishes : (exec (guarded ClosesOpen (handleStep false)) ⟨freshTables 1, []⟩ reusedEntry).map
      (·.opened) = some [(0, 1, 2), (0, 2, 2)] := by decide
  obtain ⟨w, run, opened⟩ := Option.map_eq_some_iff.mp finishes
  exact ⟨w, opened, (open_handles_map false (freshTables_noHandles 1) (guarded_run run)).2.1⟩

/-- A handle is closed twice while another is open. -/
def closedTwice : List (HandleCall × Nat) :=
  [(.create 0 1 3, 1), (.create 0 2 3, 1), (.close 0 1, 1), (.close 0 1, 1)]

/-- The second close keeps the lock, and mapping the other handle waits for ever. -/
theorem closedTwice_stuck : NoHandles (freshTables 1) ∧ ∃ w : HandleUse,
    Run (fun w l v => handleStep false w l = some v) ⟨freshTables 1, []⟩ closedTwice w ∧
    (0, 2, 2) ∈ w.opened ∧ obpMapHandleToPointer w.manager 0 2 0 false = none := by
  refine ⟨freshTables_noHandles 1, ?_⟩
  have finishes : (exec (handleStep false) ⟨freshTables 1, []⟩ closedTwice).map
      (fun w => (w.opened, (obpMapHandleToPointer w.manager 0 2 0 false).isNone)) = some ([(0, 2, 2)], true) := by decide
  obtain ⟨w, run, ends⟩ := Option.map_eq_some_iff.mp finishes
  obtain ⟨opened, stuck⟩ := Prod.mk.inj ends
  exact ⟨w, exec_run.mp run, opened ▸ List.mem_singleton_self _, Option.isNone_iff_eq_none.mp stuck⟩

end Gr8os.Ob
