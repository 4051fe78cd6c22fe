import Gr8os.Mm.Views
import Gr8os.Ob.Deletion
import Gr8os.Ob.ReferenceRuns

/-! HandleCount over whole runs: how many handles on an object are open, and what a close does to the object. -/
namespace Gr8os.Ob

open Runs Partial

def miPageProtectionToGrantedAccess (protection : BitVec 8) : BitVec 32 :=
  match (protection &&& 7).toNat with
  | 1 | 2 | 5 | 6 => Mm.fileReadData
  | 3 | 4 => Mm.fileReadData ||| Mm.fileWriteData
  | _ => 0

def mmFileMappingObjectType : ObjectType := .other 5

/-- MmCreateFileMapping as its objects and its handle see it: the handle is made by ObpCreateHandle itself.
When there is none the delete routine of the mapping releases the file, and then the function does. -/
def mmCreateFileMapping (checked allocated : Bool) (fuel : Nat) (s : ObjectManager) (process fileObject : Nat)
    (cacheMap : Bool) (desiredAccess : BitVec 32) (strongestProtection : BitVec 8) : Option (Status × ObjectManager) :=
  if !cacheMap then some (.invalidParameter2, s)
  else if Mm.miFileAccessToPageProtection desiredAccess < strongestProtection then some (.accessDenied, s)
  else
    match obCreateObject allocated s mmFileMappingObjectType [] with
    | (status, none, s) => some (status, s)
    | (_, some mappedFile, s) =>
      let s := storePointer (s.obReferenceObject fileObject) mappedFile fileObject []
      (obpCreateHandle checked s process mappedFile (miPageProtectionToGrantedAccess strongestProtection)).bind fun
        | (some _, s) => some (.success, s)
        | (none, s) =>
          (obpDeleteObject checked fuel s mappedFile).bind fun r =>
            (obDereferenceObject checked fuel r.2 fileObject).map fun s => (.insufficientResources, s)

/-- The calls of the object manager's clients, of which MmCreateFileMapping is one. -/
inductive ClientCall
  | object (l : Label)
  | createFileMapping (process fileObject : Nat) (cacheMap : Bool) (desiredAccess : BitVec 32)
      (strongestProtection : BitVec 8) (allocated : Bool) (fuel : Nat)

def clientStep (checked : Bool) (w : World) : ClientCall → Option World
  | .object l => step checked w l
  | .createFileMapping process fileObject cacheMap desiredAccess strongestProtection allocated fuel =>
    if w.Live fileObject then
      (mmCreateFileMapping checked allocated fuel w.manager process fileObject cacheMap desiredAccess
        strongestProtection).map fun r => { w with manager := r.2 }
    else none

/-- The object whose header ObClose is about to write to. -/
def closedObject (s : ObjectManager) (process : Nat) (handle : BitVec 32) : Option Nat :=
  (obpMapHandleToPointer s process handle 0 true).bind (·.2.1)

/-- ObClose decrements HandleCount in a header that its dereference has freed. -/
def closeTouchesFreed (checked : Bool) (fuel : Nat) (s : ObjectManager) (process : Nat) (handle : BitVec 32) : Prop :=
  ∃ o t, closedObject s process handle = some o ∧
    obDereferenceObject checked fuel (s.setLock process true) o = some t ∧ t.freed o = true

/-- HandleCount of every live object is the number of handles open on it, and at most its ReferenceCount. -/
structure HandleAccounts (w : World) : Prop where
  counted : ∀ o, w.Live o → (w.manager.header o).handleCount.toNat = handlesOn w.manager.handleTables o
  below : ∀ o, w.Live o → (w.manager.header o).handleCount ≤ (w.manager.header o).referenceCount

/-- A close leaves the object that it finds another reference. -/
def leavesReference (s : ObjectManager) : Call → Bool
  | .close process handle => (closedObject s process handle).all fun o => (s.header o).referenceCount ≠ 1
  | _ => true

/-- No close gives up a last reference, and no mapping gets as far as its handle. -/
def Accountable (w : World) : ClientCall → Prop
  | .object l => DeletedOnce w l ∧ leavesReference w.manager l.call = true
  | .createFileMapping _ _ cacheMap desiredAccess strongestProtection allocated _ =>
    ¬(cacheMap = true ∧ ¬Mm.miFileAccessToPageProtection desiredAccess < strongestProtection ∧ allocated = true)

instance (w : World) : (c : ClientCall) → Decidable (Accountable w c)
  | .object _ => inferInstanceAs (Decidable (_ ∧ _))
  | .createFileMapping .. => inferInstanceAs (Decidable (¬_))

/-- A relation between states that all calls stay in but those that create objects and handles or close handles. -/
structure KeptByCalls (R : ObjectManager → ObjectManager → Prop) : Prop extends KeptByEdits R where
  pending : ∀ s o, R s (markDeletePending s o)
  dereferenceEx : ∀ s o count, R s (obDereferenceObjectEx s o count)
  reference : ∀ s o, R s (s.obReferenceObject o)
  insert : ∀ s directory o, R s (obInsertObject s directory o)
  store : ∀ s holder o target, R s (storePointer s holder o target)
  setLock : ∀ s process held, R s (s.setLock process held)

section kept

variable {R : ObjectManager → ObjectManager → Prop} {checked : Bool} {fuel : Nat} {s : ObjectManager} {o : Nat}
  {r : Status × ObjectManager}

theorem obpDeleteObject_kept (kept : KeptByCalls R) (run : obpDeleteObject checked fuel s o = some r) : R s r.2 := by
  unfold obpDeleteObject at run
  split at run
  · obtain ⟨t, released, rfl⟩ := Option.map_eq_some_iff.mp run
    have dropped := (obDereferenceObject_kept kept.toKeptByEdits (markDeletePending s o) o).of_eq released
    exact kept.trans (kept.pending s o) dropped
  · obtain ⟨t, released, rfl⟩ := Option.map_eq_some_iff.mp run
    exact (obDereferenceObject_kept kept.toKeptByEdits s o).of_eq released

theorem deleteReferenced_kept (kept : KeptByCalls R) (run : deleteReferenced checked fuel s o = some r) : R s r.2 := by
  unfold deleteReferenced at run
  split at run
  · cases Option.some.inj run
    exact kept.trans (kept.pending s o) (kept.dereferenceEx _ o 2)
  · obtain ⟨r, deleted, rfl⟩ := Option.map_eq_some_iff.mp run
    have rest := (obpDeleteObjectInternal_kept kept.toKeptByEdits (obDereferenceObjectEx s o 2) o).of_eq deleted
    exact kept.trans (kept.dereferenceEx s o 2) rest

theorem referenceByName_kept (kept : KeptByCalls R) {allocated : Nat → Bool} {objectName : UnicodeString}
    {objectType : Option ObjectType} {requestorMode : ProcessorMode} {parseContext : BitVec 32}
    {named : Status × Option Nat × ObjectManager}
    (run : referenceByName allocated fuel s objectName objectType requestorMode parseContext = some named) :
    R s named.2.2 := by
  obtain ⟨result, looked, rfl⟩ := Option.map_eq_some_iff.mp run
  rcases reparseName_listed looked with ⟨_, same⟩ | ⟨o, _, space, _⟩
  · simp only [same]
    exact kept.refl s
  · simp only [space]
    exact kept.reference s o

/-- The calls that create no object and neither open nor close a handle. -/
def Call.plainEdit : Call → Bool
  | .create .. | .openByName .. | .openByPointer .. | .close .. => false
  | _ => true

theorem step_kept (kept : KeptByCalls R) {w v : World} {l : Label} (plain : l.call.plainEdit = true)
    (run : step checked w l = some v) : R w.manager v.manager := by
  unfold step at run
  cases call : l.call with
  | create | openByName | openByPointer | close =>
    rw [call] at plain
    contradiction
  | insert directory o =>
    simp only [call] at run
    split at run
    · cases Option.some.inj run
      exact kept.insert w.manager directory o
    · contradiction
  | store holder o target =>
    simp only [call] at run
    split at run
    · cases Option.some.inj run
      exact kept.store w.manager holder o target
    · contradiction
  | reference o =>
    simp only [call] at run
    split at run
    · cases Option.some.inj run
      exact kept.reference w.manager o
    · contradiction
  | dereference o =>
    simp only [call] at run
    split at run
    · obtain ⟨t, released, rfl⟩ := Option.map_eq_some_iff.mp run
      exact (obDereferenceObject_kept kept.toKeptByEdits w.manager o).of_eq released
    · contradiction
  | dereferenceCreation o =>
    simp only [call] at run
    split at run
    · obtain ⟨t, released, rfl⟩ := Option.map_eq_some_iff.mp run
      exact (obDereferenceObject_kept kept.toKeptByEdits w.manager o).of_eq released
    · contradiction
  | deletePointer o =>
    simp only [call] at run
    split at run
    · obtain ⟨r, deleted, rfl⟩ := Option.map_eq_some_iff.mp run
      exact obpDeleteObject_kept kept deleted
    · contradiction
  | deleteName objectName =>
    simp only [call] at run
    obtain ⟨r, deleted, rfl⟩ := Option.map_eq_some_iff.mp run
    obtain ⟨⟨status, object, s⟩, looked, rest⟩ := Option.bind_eq_some_iff.mp deleted
    have named : R w.manager s := referenceByName_kept kept looked
    cases object with
    | none =>
      cases Option.some.inj rest
      exact named
    | some o => exact kept.trans named (deleteReferenced_kept kept rest)
  | referenceByName objectName objectType requestorMode parseContext =>
    simp only [call] at run
    obtain ⟨r, looked, rfl⟩ := Option.map_eq_some_iff.mp run
    exact referenceByName_kept kept looked
  | referenceByHandle process handle desiredAccess =>
    simp only [call] at run
    obtain ⟨r, mapped, rfl⟩ := Option.map_eq_some_iff.mp run
    obtain ⟨⟨status, object, t⟩, entry, rest⟩ := Option.map_eq_some_iff.mp mapped
    cases object with
    | none =>
      cases rest
      rcases mapHandle_none entry with rfl | rfl
      · exact kept.refl _
      · exact kept.setLock w.manager process false
    | some o =>
      cases rest
      obtain ⟨rfl, _⟩ := mapHandle_entry entry
      exact kept.trans (kept.setLock w.manager process false) (kept.reference _ o)

end kept

/-- The handles and the counts of them stay, and no object comes back to life. -/
structure HandlesStill (s t : ObjectManager) : Prop where
  created : t.created = s.created
  tables : t.handleTables = s.handleTables
  handleCount : ∀ o, (t.header o).handleCount = (s.header o).handleCount
  going : KeepsGoing s t

theorem HandlesStill.refl (s : ObjectManager) : HandlesStill s s := ⟨rfl, rfl, fun _ => rfl, fun _ going => going⟩

theorem HandlesStill.trans {s t u : ObjectManager} (first : HandlesStill s t) (second : HandlesStill t u) :
    HandlesStill s u where
  created := second.created.trans first.created
  tables := second.tables.trans first.tables
  handleCount o := (second.handleCount o).trans (first.handleCount o)
  going := keepsGoing_edits.trans first.going second.going

theorem still_modify (s : ObjectManager) (o : Nat) {f : ObjectHeader → ObjectHeader}
    (handleCount : ∀ h, (f h).handleCount = h.handleCount) (going : ∀ h, h.going → (f h).going) :
    HandlesStill s (s.modify o f) :=
  ⟨rfl, rfl, header_modify_same s o ObjectHeader.handleCount handleCount, going_modify s o going⟩

theorem handlesStill_calls : KeptByCalls HandlesStill where
  refl := HandlesStill.refl
  trans := HandlesStill.trans
  decrement s o := still_modify s o (fun _ => rfl) fun _ going => going
  mark s o := still_modify s o (fun _ => rfl) fun _ _ => progress_going _
  unlink s o :=
    have frame := frame_unlink s o
    ⟨frame.1, frame.2.2, header_unlink_same s o ObjectHeader.handleCount fun _ _ => rfl, keepsGoing_edits.unlink s o⟩
  free s o := ⟨rfl, rfl, fun _ => rfl, fun _ going => going⟩
  pending s o := by
    have going : ∀ h : ObjectHeader, h.going → ObjectHeader.going { h with flags := h.flags ||| objDeletePending } := by
      intro h going
      rw [ObjectHeader.going, pending_going]
      exact going
    exact still_modify s o (fun _ => rfl) going
  dereferenceEx s o _ := still_modify s o (fun _ => rfl) fun _ going => going
  reference s o := by
    rw [reference_modify]
    exact still_modify s o (fun _ => rfl) fun _ going => going
  insert s directory o := by
    have listed : HandlesStill s (s.modify directory fun h => { h with body := h.body.insertTail o }) :=
      still_modify s directory (fun _ => rfl) fun _ going => going
    have linked := still_modify (s.modify directory fun h => { h with body := h.body.insertTail o }) o
      (f := fun h => { h with parentDirectory := some directory }) (fun _ => rfl) fun _ going => going
    exact listed.trans linked
  store s holder o target := still_modify s holder (fun _ => rfl) fun _ going => going
  setLock s process held := ⟨rfl, rfl, fun _ => rfl, fun _ going => going⟩

theorem HandlesStill.alive {s t : ObjectManager} (still : HandlesStill s t) {o : Nat} (alive : o ∈ t.alive) :
    o ∈ s.alive := by
  obtain ⟨created, staying⟩ := mem_alive.mp alive
  rw [still.created] at created
  exact mem_alive.mpr ⟨created, fun going => staying (still.going o going)⟩

/-- The handles on every object whose deletion has not begun are counted. -/
def HandlesCounted (s : ObjectManager) : Prop :=
  ∀ o ∈ s.alive, (s.header o).handleCount.toNat = handlesOn s.handleTables o

theorem HandlesCounted.still {s t : ObjectManager} (ok : HandlesCounted s) (still : HandlesStill s t) :
    HandlesCounted t := by
  intro o alive
  rw [still.handleCount, still.tables]
  exact ok o (still.alive alive)

/-- No count of references is too small for the handles. -/
theorem World.Consistent.handles_le {w : World} (ok : w.Consistent) (o : Nat) :
    handlesOn w.manager.handleTables o ≤ (w.manager.header o).referenceCount.toNat := by
  have exact : (w.manager.header o).referenceCount.toNat = w.outer o + _ := ok.counted.exact o
  have outer : w.outer o = (w.creation o).toNat + w.taken o + handlesOn w.manager.handleTables o := rfl
  omega

section handles

variable {checked : Bool} {fuel process o : Nat} {s : ObjectManager} {handle desiredAccess : BitVec 32}
  {r : Status × ObjectManager}

/-- The handle count of one object moves with the handles on it. -/
theorem HandlesCounted.modify (ok : HandlesCounted s) {t : ObjectManager} {f : ObjectHeader → ObjectHeader}
    (going : ∀ h, (f h).flags &&& objDeleteInProgress = h.flags &&& objDeleteInProgress)
    (header : ∀ q, t.header q = (s.modify o f).header q) (created : t.created = s.created)
    (counts : ∀ h, h.handleCount.toNat = handlesOn s.handleTables o →
      (f h).handleCount.toNat = handlesOn t.handleTables o)
    (others : ∀ q ≠ o, handlesOn t.handleTables q = handlesOn s.handleTables q) : HandlesCounted t := by
  intro q alive
  have before : q ∈ s.alive := by
    rw [← alive_modify s o going]
    obtain ⟨bound, staying⟩ := mem_alive.mp alive
    exact mem_alive.mpr ⟨created ▸ bound, header q ▸ staying⟩
  rw [header q]
  by_cases same : q = o
  · rw [same, header_modify_self]
    exact counts _ (same ▸ ok q before)
  · rw [header_modify_of_ne s f same, others q same]
    exact ok q before

/-- A handle opened on an object raises its count, unless the table has no room. -/
theorem HandlesCounted.openReferenced (ok : HandlesCounted s)
    (run : openReferenced checked fuel s process o desiredAccess = some r)
    (room : handlesOn r.2.handleTables o < 2 ^ 32) : HandlesCounted r.2 := by
  obtain ⟨created, create, rest⟩ := Option.bind_eq_some_iff.mp run
  unfold obpCreateHandle at create
  split at create
  · contradiction
  split at create
  · rename_i i free
    cases Option.some.inj create
    cases Option.some.inj rest
    have counts := handlesOn_store free o desiredAccess
    let t := (s.setEntry process i (some ⟨o, desiredAccess⟩)).modify o fun h => { h with handleCount := h.handleCount + 1 }
    change HandlesCounted t
    apply ok.modify (o := o) (t := t) (f := fun h => { h with handleCount := h.handleCount + 1 }) (fun _ => rfl)
      (fun _ => rfl) rfl
    · intro h exact
      have one := counts o
      rw [List.count_singleton_self] at one
      have bound : handlesOn (s.setEntry process i (some ⟨o, desiredAccess⟩)).handleTables o < 2 ^ 32 := room
      change (h.handleCount + 1).toNat = handlesOn (s.setEntry process i (some ⟨o, desiredAccess⟩)).handleTables o
      bv_omega
    · intro q other
      have same := counts q
      rw [List.count_eq_zero.mpr (by simpa using other)] at same
      exact same
  · split at create
    · contradiction
    · cases Option.some.inj create
      obtain ⟨t, released, rfl⟩ := Option.map_eq_some_iff.mp rest
      exact ok.still ((obDereferenceObject_kept handlesStill_calls.toKeptByEdits s o).of_eq released)

/-- A close that finds its object ends with the entry cleared, the handle counted down and the lock given back. -/
theorem close_ends (run : obClose checked fuel s process handle = some r) {status : Status} {locked : ObjectManager}
    (mapped : obpMapHandleToPointer s process handle 0 true = some (status, some o, locked)) :
    ∃ t entry, obDereferenceObject checked fuel (s.setLock process true) o = some t ∧
      handleEntry s process handle = some (some entry) ∧ entry.object = o ∧
      r.2 = (((t.modify o fun h => { h with handleCount := h.handleCount - 1 }).setEntry process
        (handle - 1).toNat none).setLock process false) := by
  unfold obClose at run
  rw [mapped, Option.bind_some] at run
  obtain ⟨rfl, inRange, entry, there, isObject⟩ := mapHandle_entry mapped
  obtain ⟨t, released, deleted⟩ := Option.bind_eq_some_iff.mp run
  have still := (obDereferenceObject_kept handlesStill_calls.toKeptByEdits (s.setLock process true) o).of_eq released
  have sameEntry : handleEntry (t.modify o fun h => { h with handleCount := h.handleCount - 1 }) process handle =
      some (some entry) := by
    have tables : t.handleTables = s.handleTables := still.tables
    simp only [handleEntry, ObjectManager.table, handleTables_modify, tables]
    exact there
  refine ⟨t, entry, released, there, isObject, ?_⟩
  unfold obpDeleteHandle at deleted
  rw [if_neg inRange, sameEntry] at deleted
  cases Option.some.inj deleted
  rfl

theorem HandlesCounted.close (ok : HandlesCounted s) (run : obClose checked fuel s process handle = some r) :
    HandlesCounted r.2 := by
  obtain ⟨⟨status, object, locked⟩, mapped, rest⟩ := Option.bind_eq_some_iff.mp run
  cases object with
  | none =>
    cases Option.some.inj rest
    rcases mapHandle_none mapped with rfl | rfl
    · exact ok
    · exact ok.still (handlesStill_calls.setLock s process true)
  | some o =>
    obtain ⟨t, entry, released, there, rfl, ends⟩ := close_ends run mapped
    have still := (obDereferenceObject_kept handlesStill_calls.toKeptByEdits (s.setLock process true) entry.object).of_eq
      released
    have before : HandlesCounted t := (ok.still (handlesStill_calls.setLock s process true)).still still
    have tables : t.handleTables = s.handleTables := still.tables
    have tables' : r.2.handleTables = (s.setEntry process (handle - 1).toNat none).handleTables := by
      rw [ends]
      simp only [ObjectManager.setLock, ObjectManager.setEntry, ObjectManager.table, handleTables_modify, tables]
    have counts := handlesOn_clear there
    apply before.modify (o := entry.object) (f := fun h => { h with handleCount := h.handleCount - 1 }) (fun _ => rfl)
    · intro q
      rw [ends]
      rfl
    · rw [ends]
      rfl
    · intro h exact
      have one := counts entry.object
      rw [List.count_singleton_self] at one
      rw [tables] at exact
      rw [tables']
      change (h.handleCount - 1).toNat = _
      bv_omega
    · intro q other
      have same := counts q
      rw [List.count_eq_zero.mpr (by simpa using other)] at same
      rw [tables', tables]
      exact same

end handles

section steps

variable {checked : Bool} {w v : World}

theorem HandlesCounted.create (ok : w.Consistent) (counted : HandlesCounted w.manager) (allocated : Bool)
    (objectType : ObjectType) (objectName : List WChar) :
    HandlesCounted (obCreateObject allocated w.manager objectType objectName).2.2 := by
  cases allocated with
  | false => exact counted
  | true =>
    let header : ObjectHeader := { objectName, referenceCount := 1, body := objectType.zeroed }
    intro q alive
    change ((w.manager.modify w.manager.created fun _ => header).header q).handleCount.toNat =
      handlesOn w.manager.handleTables q
    by_cases new : q = w.manager.created
    · have fresh : q ∉ w.manager.alive := fun member => absurd (mem_alive.mp member).1 (by omega)
      have unheld : (w.creation q).toNat + w.taken q + handlesOn w.manager.handleTables q = 0 :=
        (ok.counted.unreferenced fresh).1
      rw [new, header_modify_self, ← new]
      exact (Nat.add_eq_zero_iff.mp unheld).2.symm
    · rw [header_modify_of_ne _ _ new]
      apply counted
      obtain ⟨bound, staying⟩ := mem_alive.mp alive
      have bound : q < w.manager.created + 1 := bound
      have same : (obCreateObject true w.manager objectType objectName).2.2.header q = w.manager.header q :=
        header_modify_of_ne w.manager (fun _ => header) new
      exact mem_alive.mpr ⟨by omega, same ▸ staying⟩

theorem step_counted {l : Label} (ok : w.Consistent) (after : v.Consistent) (counted : HandlesCounted w.manager)
    (run : step checked w l = some v) : HandlesCounted v.manager := by
  have room : ∀ o, handlesOn v.manager.handleTables o < 2 ^ 32 :=
    fun o => Nat.lt_of_le_of_lt (after.handles_le o) (v.manager.header o).referenceCount.isLt
  by_cases plain : l.call.plainEdit = true
  · exact counted.still (step_kept handlesStill_calls plain run)
  unfold step at run
  cases call : l.call with
  | create objectType objectName =>
    simp only [call] at run
    cases Option.some.inj run
    exact counted.create ok _ objectType objectName
  | openByName process objectName objectType requestorMode desiredAccess parseContext =>
    simp only [call] at run
    obtain ⟨r, opened, rfl⟩ := Option.map_eq_some_iff.mp run
    obtain ⟨⟨status, object, s⟩, looked, rest⟩ := Option.bind_eq_some_iff.mp opened
    have named : HandlesStill w.manager s := referenceByName_kept handlesStill_calls looked
    cases object with
    | none =>
      cases Option.some.inj rest
      exact counted.still named
    | some o => exact (counted.still named).openReferenced rest (room o)
  | openByPointer process o objectType requestorMode desiredAccess =>
    simp only [call] at run
    split at run
    · obtain ⟨r, opened, rfl⟩ := Option.map_eq_some_iff.mp run
      unfold obOpenObjectByPointer at opened
      split at opened
      · cases Option.some.inj opened
        exact counted
      · exact (counted.still (handlesStill_calls.reference w.manager o)).openReferenced opened (room o)
    · contradiction
  | close process handle =>
    simp only [call] at run
    obtain ⟨r, closed, rfl⟩ := Option.map_eq_some_iff.mp run
    exact counted.close closed
  | _ =>
    rw [call] at plain
    exact absurd rfl plain

/-- A mapping that is turned away before its handle is made leaves the objects alone. -/
theorem mapping_turnedAway {allocated : Bool} {fuel process fileObject : Nat} {s : ObjectManager} {cacheMap : Bool}
    {desiredAccess : BitVec 32} {strongestProtection : BitVec 8} {r : Status × ObjectManager}
    (away : ¬(cacheMap = true ∧ ¬Mm.miFileAccessToPageProtection desiredAccess < strongestProtection ∧
      allocated = true))
    (run : mmCreateFileMapping checked allocated fuel s process fileObject cacheMap desiredAccess strongestProtection =
      some r) : r.2 = s := by
  unfold mmCreateFileMapping at run
  cases cacheMap with
  | false =>
    cases Option.some.inj run
    rfl
  | true =>
    by_cases weaker : Mm.miFileAccessToPageProtection desiredAccess < strongestProtection
    · cases Option.some.inj ((if_pos weaker).symm.trans run)
      rfl
    · cases allocated with
      | false =>
        cases Option.some.inj ((if_neg weaker).symm.trans run)
        rfl
      | true => exact absurd ⟨rfl, weaker, rfl⟩ away

/-- The books that a run keeps. -/
structure HandlesKept (w : World) : Prop where
  consistent : w.Consistent
  counted : HandlesCounted w.manager

theorem HandlesKept.accounts (ok : HandlesKept w) : HandleAccounts w where
  counted o live := ok.counted o (ok.consistent.alive live)
  below o live := by
    have counted := ok.counted o (ok.consistent.alive live)
    rw [BitVec.le_def, counted]
    exact ok.consistent.handles_le o

theorem clientStep_kept {c : ClientCall} (ok : HandlesKept w) (guard : Accountable w c)
    (run : clientStep checked w c = some v) : HandlesKept v := by
  cases c with
  | object l =>
    have after := step_consistent ok.consistent guard.1 run
    exact ⟨after, step_counted ok.consistent after ok.counted run⟩
  | createFileMapping process fileObject cacheMap desiredAccess strongestProtection allocated fuel =>
    simp only [clientStep] at run
    split at run
    · obtain ⟨r, mapped, rfl⟩ := Option.map_eq_some_iff.mp run
      rw [mapping_turnedAway guard mapped]
      exact ok
    · contradiction

/-- ObClose writes to a freed header exactly when it gives up the last reference. -/
theorem close_touches {fuel process o : Nat} {handle : BitVec 32} {r : Status × ObjectManager} (ok : w.Consistent)
    (closes : closedObject w.manager process handle = some o)
    (run : obClose checked fuel w.manager process handle = some r) :
    closeTouchesFreed checked fuel w.manager process handle ↔ (w.manager.header o).referenceCount = 1 := by
  obtain ⟨⟨status, object, locked⟩, mapped, isObject⟩ := Option.bind_eq_some_iff.mp closes
  simp only at isObject
  subst isObject
  obtain ⟨t, entry, released, there, rfl, _⟩ := close_ends run mapped
  have sameCount : ((w.manager.setLock process true).header entry.object).referenceCount =
      (w.manager.header entry.object).referenceCount := rfl
  have counts := handlesOn_clear there entry.object
  rw [List.count_singleton_self] at counts
  have held : 0 < w.outer entry.object := by
    simp only [World.outer]
    omega
  have alive : entry.object ∈ w.manager.alive := Accounted.alive_of_held ok held
  constructor
  · rintro ⟨o, t', closes', released', freed⟩
    cases Option.some.inj (closes.symm.trans closes')
    apply Decidable.byContradiction
    intro more
    have only := dereference_more (s := w.manager.setLock process true) more released'
    rw [only] at freed
    exact absurd alive (ok.sound.freed _ freed).2
  · intro last
    have temporary := ok.sound.temporary entry.object
    have going : (t.header entry.object).going :=
      dereference_last keepsGoing_edits (s := w.manager.setLock process true) last temporary released _ (going_mark _ _)
    have before : Accounted (w.manager.setLock process true) fun q =>
        (w.creation q).toNat + w.taken q +
          handlesOn (w.manager.setEntry process (handle - 1).toNat none).handleTables q + [entry.object].count q :=
      (Accounted.setLock ok process true).congr fun q => by
        have count := handlesOn_clear there q
        simp only [World.outer]
        omega
    have after := (before.dereference released).1
    have created : t.created = w.manager.created :=
      ((obDereferenceObject_kept handlesStill_calls.toKeptByEdits _ _).of_eq released).created
    refine ⟨entry.object, t, closes, released, after.complete _ ?_ ?_⟩
    · rw [created]
      exact (mem_alive.mp alive).1
    · exact fun member => (mem_alive.mp member).2 going

/-- A new mapping has one handle, and no handle is counted. -/
theorem mapping_uncounted {allocated : Bool} {fuel process fileObject : Nat} {cacheMap : Bool}
    {desiredAccess : BitVec 32} {strongestProtection : BitVec 8} {t : ObjectManager} (ok : w.Consistent)
    (run : mmCreateFileMapping checked allocated fuel w.manager process fileObject cacheMap desiredAccess
      strongestProtection = some (.success, t)) : ¬HandleAccounts { w with manager := t } := by
  unfold mmCreateFileMapping at run
  cases cacheMap with
  | false => cases Option.some.inj run
  | true =>
    simp only [Bool.not_true, Bool.false_eq_true, if_false] at run
    split at run
    · cases Option.some.inj run
    cases allocated with
    | false => cases Option.some.inj run
    | true =>
      let new : ObjectManager := (obCreateObject true w.manager mmFileMappingObjectType []).2.2
      let stored := storePointer (new.obReferenceObject fileObject) w.manager.created fileObject []
      obtain ⟨created, create, rest⟩ := Option.bind_eq_some_iff.mp
        (show (obpCreateHandle checked stored process w.manager.created
          (miPageProtectionToGrantedAccess strongestProtection)).bind _ = _ from run)
      unfold obpCreateHandle at create
      split at create
      · contradiction
      split at create
      · rename_i i free
        cases Option.some.inj create
        cases Option.some.inj rest
        intro books
        have still : HandlesStill new stored := (handlesStill_calls.reference new fileObject).trans
          (handlesStill_calls.store _ w.manager.created fileObject [])
        have kept : w.manager.freed w.manager.created = false := by
          cases freed : w.manager.freed w.manager.created with
          | false => rfl
          | true => exact absurd (ok.sound.freed _ freed).1 (Nat.lt_irrefl _)
        have counted := books.counted w.manager.created ⟨Nat.lt_succ_self _, kept⟩
        have none : (stored.header w.manager.created).handleCount = 0 := by
          rw [still.handleCount]
          exact congrArg ObjectHeader.handleCount (header_modify_self w.manager w.manager.created fun _ =>
            { objectName := [], referenceCount := 1, body := mmFileMappingObjectType.zeroed })
        have one := handlesOn_store free w.manager.created (miPageProtectionToGrantedAccess strongestProtection)
          w.manager.created
        rw [List.count_singleton_self] at one
        exact Nat.succ_ne_zero _ (one.symm.trans (counted.symm.trans (congrArg BitVec.toNat none)))
      · split at create
        · contradiction
        · cases Option.some.inj create
          obtain ⟨r, _, rest⟩ := Option.bind_eq_some_iff.mp rest
          obtain ⟨u, _, ends⟩ := Option.map_eq_some_iff.mp rest
          cases (Prod.mk.inj ends).1

end steps

/-- In every run in which no mapping is created and no close gives up a last reference the handles are
counted; a close touches freed storage exactly when it does, and a mapping that is created is one handle off. -/
theorem handles_accounted (checked : Bool) (processes : Nat) {w : World} {calls : List ClientCall}
    (run : Run (Guarded Accountable fun w c v => clientStep checked w c = some v) (World.init processes) calls w) :
    HandleAccounts w ∧
    (∀ fuel process handle o r, closedObject w.manager process handle = some o →
      obClose checked fuel w.manager process handle = some r →
      (closeTouchesFreed checked fuel w.manager process handle ↔ (w.manager.header o).referenceCount = 1)) ∧
    ∀ allocated fuel process fileObject cacheMap desiredAccess strongestProtection t,
      mmCreateFileMapping checked allocated fuel w.manager process fileObject cacheMap desiredAccess
        strongestProtection = some (.success, t) → ¬HandleAccounts { w with manager := t } := by
  have start : HandlesKept (World.init processes) := by
    constructor
    · exact init_consistent processes
    · intro o _
      simp [World.init, ObjectManager.header, handlesOn, refers]
  have ok : HandlesKept w :=
    run.invariant (I := HandlesKept) (fun ok guarded => clientStep_kept ok guarded.1 guarded.2) start
  refine ⟨ok.accounts, ?_, ?_⟩
  · intro fuel process handle o r closes closed
    exact close_touches ok.consistent closes closed
  · intro allocated fuel process fileObject cacheMap desiredAccess strongestProtection t
    exact mapping_uncounted ok.consistent

def Call.client (call : Call) : ClientCall := .object call.plain

/-- An object with two handles, of which one is closed, and a mapping that is refused. -/
def twoHandles : List ClientCall :=
  List.map Call.client [.create (.other 7) nameObject, .insert 0 1, .openByName 0 pathObject none .kernelMode 1 0,
    .openByPointer 0 1 none .kernelMode 1, .close 0 1] ++ [.createFileMapping 0 1 true 0x8 3 true 4]

theorem twoHandles_accounted : ∃ w : World,
    Run (Guarded Accountable fun w c v => clientStep true w c = some v) (World.init 1) twoHandles w ∧
    handlesOn w.manager.handleTables 1 = 1 ∧ HandleAccounts w := by
  have finishes : (exec (guarded Accountable (clientStep true)) (World.init 1) twoHandles).map
      (fun w => handlesOn w.manager.handleTables 1) = some 1 := by decide +kernel
  obtain ⟨w, run, one⟩ := Option.map_eq_some_iff.mp finishes
  exact ⟨w, guarded_run run, one, (handles_accounted true 1 (guarded_run run)).1⟩

/-- A handle holds the only reference on its object. -/
def onlyHandle : List ClientCall :=
  List.map Call.client [.create (.other 7) nameObject, .openByPointer 0 1 none .kernelMode 1, .dereferenceCreation 1]

def mappedFile : List ClientCall :=
  [(Call.create (.other 7) nameObject).client, .createFileMapping 0 1 true 0x8 1 true 4]

/-- Without assertions the last close decrements HandleCount in freed storage; with them it stops at the
assertion on HandleCount. The mapping's handle is not counted in either build. -/
theorem lastClose_touches :
    (∃ w v : World, Run (fun w c v => clientStep false w c = some v) (World.init 1) onlyHandle w ∧
      clientStep false w (Call.close 0 1).client = some v ∧ closeTouchesFreed false 4 w.manager 0 1) ∧
    (∃ w : World, Run (fun w c v => clientStep true w c = some v) (World.init 1) onlyHandle w ∧
      clientStep true w (Call.close 0 1).client = none) ∧
    ∀ checked : Bool, ∃ w : World, Run (fun w c v => clientStep checked w c = some v) (World.init 1) mappedFile w ∧
      (w.manager.header 2).handleCount = 0 ∧ handlesOn w.manager.handleTables 2 = 1 ∧ ¬HandleAccounts w := by
  refine ⟨?_, ?_, fun checked => ?_⟩
  · have finishes : (exec (clientStep false) (World.init 1) onlyHandle).map (fun w =>
        (closedObject w.manager 0 1, (clientStep false w (Call.close 0 1).client).isSome,
          (obDereferenceObject false 4 (w.manager.setLock 0 true) 1).map fun t => t.freed 1)) =
        some (some 1, true, some true) := by decide
    obtain ⟨w, run, ends⟩ := Option.map_eq_some_iff.mp finishes
    simp only [Prod.mk.injEq] at ends
    obtain ⟨closes, done, freed⟩ := ends
    obtain ⟨v, closed⟩ := Option.isSome_iff_exists.mp done
    obtain ⟨t, released, gone⟩ := Option.map_eq_some_iff.mp freed
    exact ⟨w, v, exec_run.mp run, closed, 1, t, closes, released, gone⟩
  · have finishes : (exec (clientStep true) (World.init 1) onlyHandle).map (fun w =>
        (clientStep true w (Call.close 0 1).client).isNone) = some true := by decide
    obtain ⟨w, run, stops⟩ := Option.map_eq_some_iff.mp finishes
    exact ⟨w, exec_run.mp run, Option.isNone_iff_eq_none.mp stops⟩
  · have finishes : (exec (clientStep checked) (World.init 1) mappedFile).map (fun w =>
        ((w.manager.header 2).handleCount, handlesOn w.manager.handleTables 2, decide (w.Live 2))) =
        some (0, 1, true) := by
      revert checked
      decide +kernel
    obtain ⟨w, run, ends⟩ := Option.map_eq_some_iff.mp finishes
    simp only [Prod.mk.injEq] at ends
    obtain ⟨uncounted, one, live⟩ := ends
    refine ⟨w, exec_run.mp run, uncounted, one, fun books => ?_⟩
    have counted := books.counted 2 (of_decide_eq_true live)
    rw [uncounted, one] at counted
    contradiction

end Gr8os.Ob
