import Gr8os.Ob.NameTypes
import Gr8os.Ob.ReferenceRuns
import Gr8os.Ob.Handles

/-! What a handle was opened for and what lookups of it may ask for, over runs of opens, closes and lookups. -/
namespace Gr8os.Ob

open Runs

/-- The access that the open handles of each process were opened with, and what the last call returned. -/
structure AccessUse where
  manager : ObjectManager
  granted : Nat → BitVec 32 → Option (BitVec 32)
  answer : Status

inductive AccessCall
  | openByName (allocated : Nat → Bool) (process : Nat) (objectName : UnicodeString) (objectType : Option ObjectType)
      (requestorMode : ProcessorMode) (desiredAccess parseContext : BitVec 32)
  | openByPointer (process o : Nat) (objectType : Option ObjectType) (requestorMode : ProcessorMode)
      (desiredAccess : BitVec 32)
  | close (process : Nat) (handle : BitVec 32)
  | map (process : Nat) (handle desiredAccess : BitVec 32)
  | reference (process : Nat) (handle desiredAccess : BitVec 32)

/-- The handle that the next open returns. -/
def nextHandle (s : ObjectManager) (process : Nat) : Option (BitVec 32) :=
  ((s.table process).findIdx? (·.isNone)).map fun i => BitVec.ofNat 32 (i + 1)

def AccessUse.grant (w : AccessUse) (process : Nat) (handle access : Option (BitVec 32)) :
    Nat → BitVec 32 → Option (BitVec 32) :=
  fun p h => if p = process ∧ some h = handle then access else w.granted p h

def AccessUse.opened (w : AccessUse) (process : Nat) (access : BitVec 32) (r : Status × ObjectManager) : AccessUse where
  manager := r.2
  granted := if r.1 = .success then w.grant process (nextHandle w.manager process) (some access) else w.granted
  answer := r.1

/-- A label is a call and a bound on the depth of the deletions that it sets off. -/
def accessStep (checked : Bool) (w : AccessUse) (l : AccessCall × Nat) : Option AccessUse :=
  match l.1 with
  | .openByName allocated process objectName objectType requestorMode desiredAccess parseContext =>
    (obOpenObjectByName checked allocated l.2 w.manager process objectName objectType requestorMode desiredAccess
      parseContext).map (w.opened process desiredAccess)
  | .openByPointer process o objectType requestorMode desiredAccess =>
    (obOpenObjectByPointer checked l.2 w.manager process o objectType requestorMode desiredAccess).map
      (w.opened process desiredAccess)
  | .close process handle =>
    (obClose checked l.2 w.manager process handle).map fun r =>
      ⟨r.2, if r.1 = .success then w.grant process (some handle) none else w.granted, r.1⟩
  | .map process handle desiredAccess =>
    (obpMapHandleToPointer w.manager process handle desiredAccess false).map fun r => ⟨r.2.2, w.granted, r.1⟩
  | .reference process handle desiredAccess =>
    (obReferenceObjectByHandle w.manager process handle desiredAccess).map fun r => ⟨r.2.2, w.granted, r.1⟩

/-- The process, the handle and the access of a lookup. -/
def AccessCall.lookup : AccessCall → Option (Nat × BitVec 32 × BitVec 32)
  | map process handle desiredAccess => some (process, handle, desiredAccess)
  | reference process handle desiredAccess => some (process, handle, desiredAccess)
  | _ => none

/-- A lookup of an open handle succeeds only if all it asks for was granted, and takes no reference otherwise. -/
def LookupRight (w : AccessUse) (l : AccessCall × Nat) (v : AccessUse) : Prop :=
  ∀ process handle desiredAccess access, l.1.lookup = some (process, handle, desiredAccess) →
    w.granted process handle = some access → desiredAccess ≠ 0 → desiredAccess ≠ -1 →
    (v.answer = .success → access &&& desiredAccess = desiredAccess) ∧
    (v.answer ≠ .success → ∀ o, (v.manager.header o).referenceCount = (w.manager.header o).referenceCount)

/-- The handle that is looked up was opened with all of the access asked for or with none of it. -/
def AllOrNone (w : AccessUse) (l : AccessCall × Nat) : Prop :=
  ∀ process handle desiredAccess access, l.1.lookup = some (process, handle, desiredAccess) →
    w.granted process handle = some access → desiredAccess ≠ -1 →
    access &&& desiredAccess = 0 ∨ access &&& desiredAccess = desiredAccess

/-- The access of each entry in use is that of the open handle it stands for, and each open handle has its entry. -/
structure GrantsOk (w : AccessUse) : Prop where
  bound : ∀ process, (w.manager.table process).length ≤ 0xFFFF
  held : ∀ process handle access, w.granted process handle = some access ↔
    ∃ i o, handle = BitVec.ofNat 32 (i + 1) ∧ (w.manager.table process)[i]? = some (some ⟨o, access⟩)

/-- The tables are the same but for one entry. -/
def EntryEdited (s t : ObjectManager) (process i : Nat) (entry : Option ObjectHandle) : Prop :=
  ∀ q, t.table q = if q = process then (s.table process).set i entry else s.table q

section steps

variable {s t : ObjectManager} {checked : Bool} {fuel process o i : Nat} {access handle desiredAccess : BitVec 32}
  {r : Status × ObjectManager}

theorem EntryEdited.congr {s' t' : ObjectManager} {entry : Option ObjectHandle} (edited : EntryEdited s t process i entry)
    (before : s'.handleTables = s.handleTables) (after : t'.handleTables = t.handleTables) :
    EntryEdited s' t' process i entry := by
  intro q
  have here := edited q
  unfold ObjectManager.table at here ⊢
  rw [before, after]
  exact here

/-- An open that succeeds puts the object and the access into the first free entry; another leaves the tables. -/
theorem openReferenced_entry (run : openReferenced checked fuel s process o access = some r) :
    (r.1 = .success ∧ ∃ i, nextHandle s process = some (BitVec.ofNat 32 (i + 1)) ∧ (s.table process)[i]? = some none ∧
      EntryEdited s r.2 process i (some ⟨o, access⟩)) ∨
    (r.1 ≠ .success ∧ r.2.handleTables = s.handleTables) := by
  obtain ⟨created, create, rest⟩ := Option.bind_eq_some_iff.mp run
  unfold obpCreateHandle at create
  split at create
  · contradiction
  split at create
  · rename_i i free
    cases Option.some.inj create
    cases Option.some.inj rest
    have there : (s.table process)[i]? = some none := Slots.get_of_free free
    refine Or.inl ⟨rfl, i, congrArg _ free, there, fun q => ?_⟩
    exact table_setEntry s there q
  · split at create
    · contradiction
    · cases Option.some.inj create
      obtain ⟨t, released, rfl⟩ := Option.map_eq_some_iff.mp rest
      exact Or.inr ⟨fun impossible => (nomatch impossible), (obDereferenceObject_tables released).1⟩

/-- A lookup by name that returns no object has failed. -/
theorem referenceByName_failed {allocated : Nat → Bool} {objectName : UnicodeString} {objectType : Option ObjectType}
    {requestorMode : ProcessorMode} {parseContext : BitVec 32} {status : Status}
    (run : referenceByName allocated fuel s objectName objectType requestorMode parseContext = some (status, none, t)) :
    status ≠ .success := by
  obtain ⟨result, call, same⟩ := Option.map_eq_some_iff.mp run
  obtain ⟨rfl, object, _⟩ : result.status = status ∧ result.object = none ∧ _ := by
    obtain ⟨first, rest⟩ := Prod.mk.inj same
    exact ⟨first, Prod.mk.inj rest⟩
  rcases reparseName_walk call with failed | ⟨o, packet, walk⟩
  · intro success
    rw [success] at failed
    cases failed
  · cases Option.some.inj (call.symm.trans (walk _ _))
    unfold finishName at object ⊢
    split at object
    · rw [if_pos ‹_›]
      exact fun impossible => (nomatch impossible)
    · cases object

/-- A lookup changes nothing but the lock; it succeeds if the entry is in use and some of the access was granted. -/
theorem mapHandle_answer {keepLock : Bool} {status : Status} {object : Option Nat}
    (mapped : obpMapHandleToPointer s process handle desiredAccess keepLock = some (status, object, t)) :
    t.handleTables = s.handleTables ∧ t.space = s.space ∧
    ((object = none ∧ status ≠ .success) ∨
      (status = .success ∧ ¬0xFFFF < handle &&& 0xFFFFFFF ∧ ∃ entry, object = some entry.object ∧
        (s.table process)[(handle - 1).toNat]? = some (some entry) ∧
        (desiredAccess ≠ 0 → entry.grantedAccess &&& desiredAccess ≠ 0))) := by
  unfold obpMapHandleToPointer at mapped
  split at mapped
  · cases mapped
    exact ⟨rfl, rfl, Or.inl ⟨rfl, fun impossible => (nomatch impossible)⟩⟩
  rename_i inRange
  split at mapped
  · cases mapped
  obtain ⟨entry, there, rest⟩ := Option.map_eq_some_iff.mp mapped
  cases entry with
  | none =>
    cases rest
    exact ⟨rfl, rfl, Or.inl ⟨rfl, fun impossible => (nomatch impossible)⟩⟩
  | some entry =>
    simp only at rest
    split at rest
    · cases rest
      exact ⟨rfl, rfl, Or.inl ⟨rfl, fun impossible => (nomatch impossible)⟩⟩
    · rename_i passed
      cases rest
      exact ⟨rfl, rfl, Or.inr ⟨rfl, inRange, entry, rfl, there, fun asked zero => passed ⟨asked, zero⟩⟩⟩

/-- A close that succeeds clears the entry of its handle; another leaves the tables. -/
theorem close_entry (run : obClose checked fuel s process handle = some r) :
    (r.1 = .success ∧ ¬0xFFFF < handle &&& 0xFFFFFFF ∧ ∃ entry, (s.table process)[(handle - 1).toNat]? = some (some entry) ∧
      EntryEdited s r.2 process (handle - 1).toNat none) ∨
    (r.1 ≠ .success ∧ r.2.handleTables = s.handleTables) := by
  obtain ⟨⟨status, object, u⟩, mapped, rest⟩ := Option.bind_eq_some_iff.mp run
  obtain ⟨tables, _, refused | ⟨_, inRange, entry, isObject, there, _⟩⟩ := mapHandle_answer mapped
  · obtain ⟨rfl, failed⟩ := refused
    cases rest
    exact Or.inr ⟨failed, tables⟩
  · subst isObject
    obtain ⟨v, released, deleted⟩ := Option.bind_eq_some_iff.mp rest
    have kept := (obDereferenceObject_tables released).1.trans tables
    have same : (v.modify entry.object fun h => { h with handleCount := h.handleCount - 1 }).table process = s.table process :=
      congrArg (List.getD · process []) kept
    unfold obpDeleteHandle at deleted
    rw [if_neg inRange, handleEntry, same, there] at deleted
    cases deleted
    refine Or.inl ⟨rfl, inRange, entry, there, ?_⟩
    have edited : EntryEdited (v.modify entry.object fun h => { h with handleCount := h.handleCount - 1 })
        ((v.modify entry.object fun h => { h with handleCount := h.handleCount - 1 }).setEntry process (handle - 1).toNat none)
        process (handle - 1).toNat none := fun q => table_setEntry _ (same ▸ there) q
    exact edited.congr kept.symm rfl

end steps

section runs

variable {checked : Bool} {w v : AccessUse} {l : AccessCall × Nat}

theorem GrantsOk.index_lt (ok : GrantsOk w) {process i : Nat} {entry : Option ObjectHandle}
    (there : (w.manager.table process)[i]? = some entry) : i < 0xFFFF := by
  have inside := (List.getElem?_eq_some_iff.mp there).1
  have bound := ok.bound process
  omega

theorem GrantsOk.same (ok : GrantsOk w) (tables : v.manager.handleTables = w.manager.handleTables)
    (granted : v.granted = w.granted) : GrantsOk v := by
  have table : ∀ q, v.manager.table q = w.manager.table q := fun q => congrArg (List.getD · q []) tables
  refine ⟨fun q => ?_, fun q handle access => ?_⟩
  · rw [table q]
    exact ok.bound q
  · rw [table q, granted]
    exact ok.held q handle access

/-- An entry and the grant of its handle are replaced together. -/
theorem GrantsOk.edit (ok : GrantsOk w) {process i : Nat} {old : Option ObjectHandle}
    (there : (w.manager.table process)[i]? = some old) {entry : Option ObjectHandle}
    (edited : EntryEdited w.manager v.manager process i entry)
    (granted : v.granted = w.grant process (some (BitVec.ofNat 32 (i + 1))) (entry.map (·.grantedAccess))) : GrantsOk v := by
  have small := ok.index_lt there
  have inside : i < (w.manager.table process).length := (List.getElem?_eq_some_iff.mp there).1
  refine ⟨fun q => ?_, fun q handle access => ?_⟩
  · rw [edited q]
    split
    · rw [List.length_set]
      exact ok.bound process
    · exact ok.bound q
  · rw [edited q, granted, AccessUse.grant]
    by_cases here : q = process ∧ some handle = some (BitVec.ofNat 32 (i + 1))
    · obtain ⟨rfl, isHandle⟩ := here
      rw [if_pos ⟨rfl, isHandle⟩, if_pos rfl]
      constructor
      · intro new
        obtain ⟨e, rfl, rfl⟩ := Option.map_eq_some_iff.mp new
        exact ⟨i, e.object, Option.some.inj isHandle, List.getElem?_set_self inside⟩
      · rintro ⟨j, o, other, found⟩
        have bound : j < 0xFFFF := by
          have inSet := (List.getElem?_eq_some_iff.mp found).1
          rw [List.length_set] at inSet
          have limit := ok.bound q
          omega
        have index : j = i := by
          rw [← handle_index bound, ← other, Option.some.inj isHandle, handle_index small]
        rw [index, List.getElem?_set_self inside] at found
        rw [Option.some.inj found]
        rfl
    · rw [if_neg here, ok.held q handle access]
      by_cases this : q = process
      · subst this
        rw [if_pos rfl]
        have other : ∀ j, handle = BitVec.ofNat 32 (j + 1) → i ≠ j := by
          rintro j rfl rfl
          exact here ⟨rfl, rfl⟩
        constructor
        · rintro ⟨j, o, isHandle, found⟩
          exact ⟨j, o, isHandle, (List.getElem?_set_ne (other j isHandle)).trans found⟩
        · rintro ⟨j, o, isHandle, found⟩
          exact ⟨j, o, isHandle, (List.getElem?_set_ne (other j isHandle)).symm.trans found⟩
      · rw [if_neg this]

theorem GrantsOk.open (ok : GrantsOk w) {fuel process o : Nat} {access : BitVec 32} {s : ObjectManager}
    {r : Status × ObjectManager} (tables : s.handleTables = w.manager.handleTables)
    (run : openReferenced checked fuel s process o access = some r) : GrantsOk (w.opened process access r) := by
  have table : s.table process = w.manager.table process := congrArg (List.getD · process []) tables
  rcases openReferenced_entry run with ⟨success, i, next, there, edited⟩ | ⟨failed, kept⟩
  · refine ok.edit (table ▸ there) (edited.congr tables.symm rfl) ?_
    have same : nextHandle w.manager process = nextHandle s process := by
      unfold nextHandle
      rw [table]
    unfold AccessUse.opened
    rw [if_pos success, same, next]
    rfl
  · refine ok.same (kept.trans tables) ?_
    exact if_neg failed

theorem accessStep_ok (ok : GrantsOk w) (run : accessStep checked w l = some v) : GrantsOk v := by
  obtain ⟨call, fuel⟩ := l
  cases call with
  | openByName allocated process objectName objectType requestorMode desiredAccess parseContext =>
    obtain ⟨r, opened, rfl⟩ := Option.map_eq_some_iff.mp run
    obtain ⟨⟨status, object, s⟩, named, rest⟩ := Option.bind_eq_some_iff.mp opened
    have tables : s.handleTables = w.manager.handleTables := by
      obtain ⟨result, _, same⟩ := Option.map_eq_some_iff.mp named
      cases same
      rfl
    cases object with
    | none =>
      cases rest
      exact ok.same tables (if_neg (referenceByName_failed named))
    | some o => exact ok.open tables rest
  | openByPointer process o objectType requestorMode desiredAccess =>
    obtain ⟨r, opened, rfl⟩ := Option.map_eq_some_iff.mp run
    unfold obOpenObjectByPointer at opened
    split at opened
    · cases opened
      have kept : (w.opened process desiredAccess (.accessDenied, w.manager)).granted = w.granted := by
        simp [AccessUse.opened]
      exact ok.same rfl kept
    · exact ok.open (s := w.manager.obReferenceObject o) rfl opened
  | close process handle =>
    obtain ⟨r, closed, rfl⟩ := Option.map_eq_some_iff.mp run
    rcases close_entry closed with ⟨success, _, entry, there, edited⟩ | ⟨failed, kept⟩
    · refine ok.edit there edited ?_
      have small := ok.index_lt there
      have isHandle : BitVec.ofNat 32 ((handle - 1).toNat + 1) = handle := by bv_omega
      rw [isHandle]
      exact if_pos success
    · exact ok.same kept (if_neg failed)
  | map process handle desiredAccess =>
    obtain ⟨r, mapped, rfl⟩ := Option.map_eq_some_iff.mp run
    exact ok.same (mapHandle_answer mapped).1 rfl
  | reference process handle desiredAccess =>
    obtain ⟨r, referenced, rfl⟩ := Option.map_eq_some_iff.mp run
    obtain ⟨⟨status, object, t⟩, mapped, same⟩ := Option.map_eq_some_iff.mp referenced
    have tables := (mapHandle_answer mapped).1
    cases object with
    | none =>
      cases same
      exact ok.same tables rfl
    | some o =>
      cases same
      exact ok.same tables rfl

/-- A lookup answers as the mapping of its handle does, and where it fails the objects are as before. -/
theorem lookup_answer {process : Nat} {handle desiredAccess : BitVec 32} (run : accessStep checked w l = some v)
    (looked : l.1.lookup = some (process, handle, desiredAccess)) :
    ∃ object t, obpMapHandleToPointer w.manager process handle desiredAccess false = some (v.answer, object, t) ∧
      (v.answer ≠ .success → v.manager.space = w.manager.space) := by
  obtain ⟨call, fuel⟩ := l
  cases call with
  | map p h d =>
    cases looked
    obtain ⟨⟨status, object, t⟩, mapped, rfl⟩ := Option.map_eq_some_iff.mp run
    exact ⟨object, t, mapped, fun _ => (mapHandle_answer mapped).2.1⟩
  | reference p h d =>
    cases looked
    obtain ⟨r, referenced, rfl⟩ := Option.map_eq_some_iff.mp run
    obtain ⟨⟨status, object, t⟩, mapped, same⟩ := Option.map_eq_some_iff.mp referenced
    obtain ⟨_, space, cases⟩ := mapHandle_answer mapped
    cases object with
    | none =>
      cases same
      exact ⟨none, t, mapped, fun _ => space⟩
    | some o =>
      cases same
      refine ⟨some o, t, mapped, fun failed => ?_⟩
      rcases cases with ⟨impossible, _⟩ | ⟨success, _⟩
      · cases impossible
      · exact absurd success failed
  | openByName => cases looked
  | openByPointer => cases looked
  | close => cases looked

/-- A lookup of an open handle that succeeds was granted some of what it asks for. -/
theorem GrantsOk.success (ok : GrantsOk w) {process : Nat} {handle desiredAccess access : BitVec 32}
    (run : accessStep checked w l = some v) (looked : l.1.lookup = some (process, handle, desiredAccess))
    (opened : w.granted process handle = some access) (asked : desiredAccess ≠ 0) (success : v.answer = .success) :
    access &&& desiredAccess ≠ 0 := by
  obtain ⟨i, o, isHandle, there⟩ := (ok.held process handle access).mp opened
  obtain ⟨object, t, mapped, _⟩ := lookup_answer run looked
  obtain ⟨_, _, ⟨_, failed⟩ | ⟨_, _, entry, _, found, some⟩⟩ := mapHandle_answer mapped
  · exact absurd success failed
  · rw [isHandle, handle_index (ok.index_lt there), there] at found
    cases found
    exact some asked

/-- With the lock free, a lookup of an open handle that was granted some of what it asks for succeeds. -/
theorem GrantsOk.succeeds (ok : GrantsOk w) {process : Nat} {handle desiredAccess access : BitVec 32}
    (run : accessStep checked w l = some v) (looked : l.1.lookup = some (process, handle, desiredAccess))
    (opened : w.granted process handle = some access) (some : access &&& desiredAccess ≠ 0) : v.answer = .success := by
  obtain ⟨i, o, isHandle, there⟩ := (ok.held process handle access).mp opened
  have small := ok.index_lt there
  obtain ⟨object, t, mapped, _⟩ := lookup_answer run looked
  have found : handleEntry w.manager process handle = .some (.some ⟨o, access⟩) := by
    rw [handleEntry, isHandle, handle_index small, there]
  unfold obpMapHandleToPointer at mapped
  rw [if_neg (isHandle ▸ handle_inRange small), found] at mapped
  split at mapped
  · cases mapped
  · rw [Option.map_some] at mapped
    simp only [some, and_false, if_false] at mapped
    exact (Prod.mk.inj (Option.some.inj mapped)).1.symm

/-- A step from a state with its grants in order is right if and only if its lookup asks an open handle for all or none
of what it was granted. -/
theorem lookupRight_iff (ok : GrantsOk w) (run : accessStep checked w l = some v) :
    LookupRight w l v ↔ AllOrNone w l := by
  constructor
  · intro right process handle desiredAccess access looked opened other
    by_cases none : access &&& desiredAccess = 0
    · exact Or.inl none
    · have asked : desiredAccess ≠ 0 := by
        rintro rfl
        exact none (BitVec.and_zero)
      have success := ok.succeeds run looked opened none
      exact Or.inr ((right process handle desiredAccess access looked opened asked other).1 success)
  · intro whole process handle desiredAccess access looked opened asked other
    constructor
    · intro success
      exact (whole process handle desiredAccess access looked opened other).resolve_left
        (ok.success run looked opened asked success)
    · intro failed o
      obtain ⟨object, t, mapped, kept⟩ := lookup_answer run looked
      unfold ObjectManager.header
      rw [kept failed]

/-- In every run whose lookups ask open handles for all or none of what they were granted, every lookup is right; and
after any run a lookup that returns is right only so. -/
theorem lookups_right (checked : Bool) {s : ObjectManager} (initial : NoHandles s) {answer : Status}
    {calls : List (AccessCall × Nat)} {w : AccessUse} :
    (Run (Guarded AllOrNone fun w l v => accessStep checked w l = some v) ⟨s, fun _ _ => none, answer⟩ calls w →
      ∀ l v, Guarded AllOrNone (fun w l v => accessStep checked w l = some v) w l v → LookupRight w l v) ∧
    (Run (fun w l v => accessStep checked w l = some v) ⟨s, fun _ _ => none, answer⟩ calls w →
      ∀ l v, accessStep checked w l = some v → (LookupRight w l v ↔ AllOrNone w l)) := by
  have start : GrantsOk ⟨s, fun _ _ => none, answer⟩ := by
    refine ⟨initial.bound, fun process handle access => ⟨fun impossible => (nomatch impossible), ?_⟩⟩
    rintro ⟨i, o, _, there⟩
    have empty := initial.empty process _ (List.mem_of_getElem? there)
    cases empty
  have reached : Run (fun w l v => accessStep checked w l = some v) ⟨s, fun _ _ => none, answer⟩ calls w → GrantsOk w :=
    fun run => run.invariant (I := GrantsOk) (fun ok step => accessStep_ok ok step) start
  constructor
  · intro run l v step
    exact (lookupRight_iff (reached (run.mono fun guarded => guarded.2)) step.2).mpr step.1
  · intro run l v step
    exact lookupRight_iff (reached run) step

end runs

/-- A handle opened with one bit of access. -/
def openedOnce : List (AccessCall × Nat) := [(.openByPointer 0 1 (some (.other 7)) .kernelMode 1, 1)]

/-- A lookup that asks for the bit that was granted is right. -/
theorem lookups_right_openedOnce : ∃ w v : AccessUse,
    accessStep true w (.reference 0 1 1, 1) = some v ∧ v.answer = .success ∧ w.granted 0 1 = some 1 ∧
    LookupRight w (.reference 0 1 1, 1) v := by
  have finishes : ((accessStep true ⟨freshTables 1, fun _ _ => none, .success⟩
      (.openByPointer 0 1 (some (.other 7)) .kernelMode 1, 1)).bind fun w =>
      (accessStep true w (.reference 0 1 1, 1)).map fun v => (w.granted 0 1, v.answer)) = some (some 1, .success) := by decide
  obtain ⟨w, first, rest⟩ := Option.bind_eq_some_iff.mp finishes
  obtain ⟨v, step, ends⟩ := Option.map_eq_some_iff.mp rest
  obtain ⟨opened, success⟩ := Prod.mk.inj ends
  have noLookup : AllOrNone ⟨freshTables 1, fun _ _ => none, .success⟩
      (.openByPointer 0 1 (some (.other 7)) .kernelMode 1, 1) := by
    intro process handle desiredAccess access looked
    cases looked
  have whole : AllOrNone w (.reference 0 1 1, 1) := by
    intro process handle desiredAccess access looked held _
    cases looked
    cases opened.symm.trans held
    exact Or.inr (by decide)
  exact ⟨w, v, step, success, opened, (lookups_right true (freshTables_noHandles 1)).1
    (.next ⟨noLookup, first⟩ (.done w)) _ v ⟨whole, step⟩⟩

/-- A lookup that asks for two bits where one was granted succeeds. -/
theorem lookup_wrong : NoHandles (freshTables 1) ∧ ∃ w v : AccessUse,
    Run (fun w l v => accessStep true w l = some v) ⟨freshTables 1, fun _ _ => none, .success⟩ openedOnce w ∧
    accessStep true w (.reference 0 1 3, 1) = some v ∧ ¬LookupRight w (.reference 0 1 3, 1) v := by
  refine ⟨freshTables_noHandles 1, ?_⟩
  have finishes : ((exec (accessStep true) ⟨freshTables 1, fun _ _ => none, .success⟩ openedOnce).bind fun w =>
      (accessStep true w (.reference 0 1 3, 1)).map fun v => (w.granted 0 1, v.answer)) = some (some 1, .success) := by decide
  obtain ⟨w, run, rest⟩ := Option.bind_eq_some_iff.mp finishes
  obtain ⟨v, step, ends⟩ := Option.map_eq_some_iff.mp rest
  obtain ⟨opened, success⟩ := Prod.mk.inj ends
  refine ⟨w, v, exec_run.mp run, step, fun right => ?_⟩
  have all := (right 0 1 3 1 rfl opened (by decide) (by decide)).1 success
  exact absurd all (by decide)

end Gr8os.Ob
