import Gr8os.Ob.Deletion
import Gr8os.Ob.ReferenceRuns

/-! ObjectCount and ObIsObjectGoingAway over whole runs: they tell the truth until an object is deleted. -/
namespace Gr8os.Ob

open Runs Partial

def obIsObjectGoingAway (s : ObjectManager) (o : Nat) : Bool := (s.header o).flags &&& objDeleteInProgress = 1

/-- OBJ_DELETE_IN_PROGRESS is bit 2, and the comparison is with bit 0. -/
theorem obIsObjectGoingAway_false (s : ObjectManager) (o : Nat) : obIsObjectGoingAway s o = false := by
  unfold obIsObjectGoingAway
  rw [decide_eq_false_iff_not]
  intro one
  have bit := congrArg (·.getLsbD 0) one
  simp [objDeleteInProgress] at bit

/-- What the delete routine of an object is told about it. -/
theorem deleteRoutine_goingAway (s : ObjectManager) (o : Nat) :
    ((s.begin o).header o).going ∧ obIsObjectGoingAway (s.begin o) o = false := by
  have flags : ((s.begin o).header o).flags = ((s.mark o).header o).flags :=
    header_unlink_same (s.mark o) o ObjectHeader.flags (fun _ _ => rfl) o
  constructor
  · rw [ObjectHeader.going, flags]
    exact going_mark s o
  · exact obIsObjectGoingAway_false _ o

/-- The world with the ObjectCount of each type. -/
structure Lifecycle where
  world : World
  objectCount : ObjectType → BitVec 32

/-- ObCreateObject counts the object in its type when the heap had room for it. -/
def countCreated (allocated : Bool) (objectCount : ObjectType → BitVec 32) (objectType : ObjectType) :
    ObjectType → BitVec 32 :=
  if !allocated then objectCount
  else fun t => if t = objectType then objectCount t + 1 else objectCount t

/-- No other call writes to ObjectCount. -/
def Label.counted (l : Label) (objectCount : ObjectType → BitVec 32) : ObjectType → BitVec 32 :=
  match l.call with
  | .create objectType _ => countCreated (l.allocated 0) objectCount objectType
  | _ => objectCount

def lifeStep (checked : Bool) (c : Lifecycle) (l : Label) : Option Lifecycle :=
  (step checked c.world l).map fun w => { world := w, objectCount := l.counted c.objectCount }

/-- ObInitSystem has created the root directory. -/
def Lifecycle.init (processes : Nat) : Lifecycle where
  world := World.init processes
  objectCount t := if t = .directory then 1 else 0

/-- The objects of a type that were created and whose storage is not freed. -/
def ObjectManager.live (s : ObjectManager) (t : ObjectType) : Finset Nat :=
  (Finset.range s.created).filter fun o => s.freed o = false ∧ (s.header o).objectType = t

structure LifecycleOk (c : Lifecycle) : Prop where
  objectCount : ∀ t, (c.objectCount t).toNat = (c.world.manager.live t).card
  goingAway : ∀ o, obIsObjectGoingAway c.world.manager o = true ↔ (c.world.manager.header o).going

/-- The object on which a call gives up a reference, and how many there are then. -/
def Label.released (l : Label) (s : ObjectManager) : Option (Nat × BitVec 32) :=
  let full (process : Nat) : Bool := ((s.table process).findIdx? (·.isNone)).isNone
  match l.call with
  | .dereference o | .dereferenceCreation o | .deletePointer o => some (o, (s.header o).referenceCount)
  | .deleteName objectName => (l.denoted s objectName).map fun o => (o, (s.header o).referenceCount)
  | .openByName process objectName objectType requestorMode _ parseContext =>
    if full process then
      (referenceByName l.allocated l.fuel s objectName objectType requestorMode parseContext).bind fun r =>
        r.2.1.map fun o => (o, (r.2.2.header o).referenceCount)
    else none
  | .openByPointer process o objectType requestorMode _ =>
    if full process ∧ ¬(some (s.header o).objectType ≠ objectType ∧ requestorMode ≠ .kernelMode) then
      some (o, ((s.obReferenceObject o).header o).referenceCount)
    else none
  | .close process handle =>
    ((obpMapHandleToPointer s process handle 0 true).bind (·.2.1)).map fun o => (o, (s.header o).referenceCount)
  | _ => none

/-- The call gives up no last reference, and counts no type past the range of its ObjectCount. -/
def LeavesReference (c : Lifecycle) (l : Label) : Prop :=
  (l.released c.world.manager).all (fun p => p.2 ≠ 1) = true ∧
  match l.call with
  | .create objectType _ => l.allocated 0 = true → c.objectCount objectType ≠ 0xFFFFFFFF
  | _ => True

instance (c : Lifecycle) (l : Label) : Decidable (LeavesReference c l) := by
  unfold LeavesReference
  cases l.call <;> infer_instance

/-- No deletion has begun, and all objects that were created are counted. -/
structure Undeleted (s : ObjectManager) (objectCount : ObjectType → BitVec 32) : Prop where
  kept : ∀ o, s.freed o = false
  staying : ∀ o, (s.header o).flags &&& objDeleteInProgress = 0
  temporary : ∀ o, (s.header o).flags &&& objPermanent = 0
  counted : ∀ t, (objectCount t).toNat = (s.live t).card

/-- Nothing that the books of the lifecycle read is changed. -/
structure Quiet (s t : ObjectManager) : Prop where
  created : t.created = s.created
  freed : t.freed = s.freed
  objectType : ∀ o, (t.header o).objectType = (s.header o).objectType
  staying : ∀ o, (t.header o).flags &&& objDeleteInProgress = (s.header o).flags &&& objDeleteInProgress
  permanent : ∀ o, (t.header o).flags &&& objPermanent = (s.header o).flags &&& objPermanent

theorem Quiet.refl (s : ObjectManager) : Quiet s s := ⟨rfl, rfl, fun _ => rfl, fun _ => rfl, fun _ => rfl⟩

theorem Quiet.trans {s t u : ObjectManager} (first : Quiet s t) (second : Quiet t u) : Quiet s u where
  created := second.created.trans first.created
  freed := second.freed.trans first.freed
  objectType o := (second.objectType o).trans (first.objectType o)
  staying o := (second.staying o).trans (first.staying o)
  permanent o := (second.permanent o).trans (first.permanent o)

theorem quiet_modify (s : ObjectManager) (o : Nat) {f : ObjectHeader → ObjectHeader}
    (objectType : ∀ h, (f h).objectType = h.objectType)
    (staying : ∀ h, (f h).flags &&& objDeleteInProgress = h.flags &&& objDeleteInProgress)
    (permanent : ∀ h, (f h).flags &&& objPermanent = h.flags &&& objPermanent) : Quiet s (s.modify o f) where
  created := rfl
  freed := rfl
  objectType := header_modify_same s o ObjectHeader.objectType objectType
  staying := header_modify_same s o (fun h => h.flags &&& objDeleteInProgress) staying
  permanent := header_modify_same s o (fun h => h.flags &&& objPermanent) permanent

theorem quiet_decrement (s : ObjectManager) (o : Nat) : Quiet s (s.decrement o) :=
  quiet_modify s o (fun _ => rfl) (fun _ => rfl) fun _ => rfl

theorem quiet_pending (s : ObjectManager) (o : Nat) : Quiet s (markDeletePending s o) :=
  quiet_modify s o (fun _ => rfl) (fun h => pending_going h.flags) fun h => pending_permanent h.flags

theorem quiet_reference (s : ObjectManager) (o : Nat) : Quiet s (s.obReferenceObject o) := by
  rw [reference_modify]
  exact quiet_modify s o (fun _ => rfl) (fun _ => rfl) fun _ => rfl

theorem quiet_dereferenceEx (s : ObjectManager) (o : Nat) (count : BitVec 32) :
    Quiet s (obDereferenceObjectEx s o count) :=
  quiet_modify s o (fun _ => rfl) (fun _ => rfl) fun _ => rfl

theorem quiet_insert (s : ObjectManager) (directory o : Nat) : Quiet s (obInsertObject s directory o) := by
  have listed : Quiet s (s.modify directory fun h => { h with body := h.body.insertTail o }) :=
    quiet_modify s directory (fun h => by cases h with | mk _ _ body => cases body <;> rfl) (fun _ => rfl) fun _ => rfl
  have linked := quiet_modify (s.modify directory fun h => { h with body := h.body.insertTail o }) o
    (f := fun h => { h with parentDirectory := some directory }) (fun _ => rfl) (fun _ => rfl) fun _ => rfl
  exact listed.trans linked

theorem quiet_store (s : ObjectManager) (holder o : Nat) (target : List WChar) :
    Quiet s (storePointer s holder o target) :=
  quiet_modify s holder (fun h => by cases h with | mk _ _ body => cases body <;> rfl) (fun _ => rfl) fun _ => rfl

theorem quiet_setEntry (s : ObjectManager) (process i : Nat) (entry : Option ObjectHandle) :
    Quiet s (s.setEntry process i entry) :=
  ⟨rfl, rfl, fun _ => rfl, fun _ => rfl, fun _ => rfl⟩

theorem quiet_setLock (s : ObjectManager) (process : Nat) (held : Bool) : Quiet s (s.setLock process held) :=
  ⟨rfl, rfl, fun _ => rfl, fun _ => rfl, fun _ => rfl⟩

theorem live_quiet {s t : ObjectManager} (quiet : Quiet s t) (type : ObjectType) : t.live type = s.live type := by
  simp only [ObjectManager.live, quiet.created, quiet.freed, quiet.objectType]

theorem Undeleted.quiet {s t : ObjectManager} {objectCount : ObjectType → BitVec 32} (ok : Undeleted s objectCount)
    (quiet : Quiet s t) : Undeleted t objectCount where
  kept o := (congrFun quiet.freed o).trans (ok.kept o)
  staying o := (quiet.staying o).trans (ok.staying o)
  temporary o := (quiet.permanent o).trans (ok.temporary o)
  counted type := by rw [live_quiet quiet, ok.counted]

section create

variable {s : ObjectManager} {objectCount : ObjectType → BitVec 32} {objectType : ObjectType} {objectName : List WChar}

theorem objectType_zeroed (objectType : ObjectType) (h : ObjectHeader) :
    ObjectHeader.objectType { h with body := objectType.zeroed } = objectType := by
  cases objectType <;> rfl

/-- The new object is live, of its type, and no other object changes. -/
theorem live_create (kept : s.freed s.created = false) (t : ObjectType) :
    ((obCreateObject true s objectType objectName).2.2.live t).card =
      (s.live t).card + if t = objectType then 1 else 0 := by
  let header : ObjectHeader := { objectName, referenceCount := 1, body := objectType.zeroed }
  have type : header.objectType = objectType := objectType_zeroed objectType header
  have old : ∀ o < s.created, ((s.modify s.created fun _ => header).header o).objectType = (s.header o).objectType := by
    intro o before
    rw [header_modify_of_ne s _ (by omega)]
  have same : ((Finset.range s.created).filter fun o => s.freed o = false ∧
      ((s.modify s.created fun _ => header).header o).objectType = t) = s.live t := by
    apply Finset.filter_congr
    intro o member
    rw [old o (Finset.mem_range.mp member)]
  have fresh : s.created ∉ s.live t := by
    intro member
    exact absurd (Finset.mem_range.mp (Finset.mem_filter.mp member).1) (Nat.lt_irrefl _)
  have live : (obCreateObject true s objectType objectName).2.2.live t =
      if objectType = t then insert s.created (s.live t) else s.live t := by
    have range : (obCreateObject true s objectType objectName).2.2.live t =
        (Finset.range (s.created + 1)).filter fun o => s.freed o = false ∧
          ((s.modify s.created fun _ => header).header o).objectType = t := rfl
    rw [range, Finset.range_add_one, Finset.filter_insert, same]
    simp only [kept, header_modify_self, type, true_and]
  rw [live]
  by_cases matching : t = objectType
  · rw [if_pos matching.symm, if_pos matching, Finset.card_insert_of_notMem fresh]
  · rw [if_neg (Ne.symm matching), if_neg matching, Nat.add_zero]

theorem Undeleted.create (ok : Undeleted s objectCount) {allocated : Bool}
    (room : allocated = true → objectCount objectType ≠ 0xFFFFFFFF) :
    Undeleted (obCreateObject allocated s objectType objectName).2.2 (countCreated allocated objectCount objectType) := by
  cases allocated with
  | false => exact ok
  | true =>
    have flags (mask : BitVec 32) (none : ∀ o, (s.header o).flags &&& mask = 0) (o : Nat) :
        ((obCreateObject true s objectType objectName).2.2.header o).flags &&& mask = 0 := by
      let header : ObjectHeader := { objectName, referenceCount := 1, body := objectType.zeroed }
      change ((s.modify s.created fun _ => header).header o).flags &&& mask = 0
      by_cases new : o = s.created
      · rw [new, header_modify_self]
        exact BitVec.zero_and
      · rw [header_modify_of_ne s _ new]
        exact none o
    constructor
    · exact ok.kept
    · exact flags objDeleteInProgress ok.staying
    · exact flags objPermanent ok.temporary
    · intro t
      have before := ok.counted t
      rw [live_create (ok.kept _)]
      simp only [countCreated, Bool.not_true, Bool.false_eq_true, if_false]
      by_cases matching : t = objectType
      · have room := room rfl
        rw [if_pos matching, if_pos matching]
        rw [← matching] at room
        bv_omega
      · rw [if_neg matching, if_neg matching, before, Nat.add_zero]

/-- A type with as many live objects as its ObjectCount can tell gets one more. -/
theorem create_overflow (ok : Undeleted s objectCount) (last : objectCount objectType = 0xFFFFFFFF) :
    (countCreated true objectCount objectType objectType).toNat ≠
      ((obCreateObject true s objectType objectName).2.2.live objectType).card := by
  have wraps : countCreated true objectCount objectType objectType = 0 := by
    simp only [countCreated, Bool.not_true, Bool.false_eq_true, if_false, if_true, last]
    rfl
  rw [live_create (ok.kept _), if_pos rfl, wraps]
  exact (Nat.succ_ne_zero _).symm

end create

/-- A call gives up a reference on an object that has `n` of them: its deletion begins with the last. -/
structure GivenUp (s : ObjectManager) (o : Nat) (n : BitVec 32) (t : ObjectManager) : Prop where
  more : n ≠ 1 → Quiet s t
  last : n = 1 → (t.header o).going

theorem GivenUp.after {s s' t : ObjectManager} {o : Nat} {n : BitVec 32} (before : Quiet s s') (h : GivenUp s' o n t) :
    GivenUp s o n t :=
  ⟨fun more => before.trans (h.more more), h.last⟩

theorem GivenUp.and {s t u : ObjectManager} {o : Nat} {n : BitVec 32} (h : GivenUp s o n t) (after : Quiet t u) :
    GivenUp s o n u where
  more other := (h.more other).trans after
  last one := by
    rw [ObjectHeader.going, after.staying]
    exact h.last one

section release

variable {checked : Bool} {fuel : Nat} {s t : ObjectManager} {o : Nat} {r : Status × ObjectManager}

theorem dereference_givenUp (temporary : (s.header o).flags &&& objPermanent = 0)
    (run : obDereferenceObject checked fuel s o = some t) : GivenUp s o (s.header o).referenceCount t where
  more other := dereference_more other run ▸ quiet_decrement s o
  last one := dereference_last keepsGoing_edits one temporary run o (going_mark _ o)

theorem deleteObject_givenUp (temporary : (s.header o).flags &&& objPermanent = 0)
    (run : obpDeleteObject checked fuel s o = some r) : GivenUp s o (s.header o).referenceCount r.2 := by
  unfold obpDeleteObject at run
  split at run
  · obtain ⟨t, released, rfl⟩ := Option.map_eq_some_iff.mp run
    have pending := quiet_pending s o
    have count : ((markDeletePending s o).header o).referenceCount = (s.header o).referenceCount := by
      simp only [markDeletePending, header_modify_self]
    have givenUp := dereference_givenUp ((pending.permanent o).trans temporary) released
    rw [count] at givenUp
    exact givenUp.after pending
  · obtain ⟨t, released, rfl⟩ := Option.map_eq_some_iff.mp run
    exact dereference_givenUp temporary released

/-- The two references of a deletion by name go at once: the one of the lookup is there besides. -/
theorem deleteReferenced_givenUp {n : BitVec 32} (count : (s.header o).referenceCount = n + 1)
    (run : deleteReferenced checked fuel s o = some r) : GivenUp s o n r.2 := by
  have dropped : ((obDereferenceObjectEx s o 2).header o).referenceCount = n - 1 := by
    simp only [obDereferenceObjectEx, header_modify_self, count]
    bv_omega
  unfold deleteReferenced at run
  split at run
  · rename_i many
    cases Option.some.inj run
    constructor
    · intro _
      exact (quiet_pending s o).trans (quiet_dereferenceEx _ o 2)
    · intro one
      rw [count, one] at many
      exact absurd many (by decide)
  · obtain ⟨r, deleted, rfl⟩ := Option.map_eq_some_iff.mp run
    cases fuel with
    | zero => contradiction
    | succ fuel =>
      constructor
      · intro more
        unfold obpDeleteObjectInternal at deleted
        have used : ((obDereferenceObjectEx s o 2).header o).referenceCount ≠ 0 := by
          rw [dropped]
          bv_omega
        cases Option.some.inj ((if_pos used).symm.trans deleted)
        exact quiet_dereferenceEx s o 2
      · intro one
        have none : ((obDereferenceObjectEx s o 2).header o).referenceCount = 0 := by
          rw [dropped, one]
          rfl
        exact deleteBegun_kept keepsGoing_edits (obpDeleteObjectInternal_kept keepsGoing_edits) none deleted o
          (going_mark _ o)

theorem openReferenced_givenUp {process : Nat} {desiredAccess : BitVec 32}
    (temporary : (s.header o).flags &&& objPermanent = 0)
    (run : openReferenced checked fuel s process o desiredAccess = some r) :
    if ((s.table process).findIdx? (·.isNone)).isNone then GivenUp s o (s.header o).referenceCount r.2
    else Quiet s r.2 := by
  obtain ⟨created, create, rest⟩ := Option.bind_eq_some_iff.mp run
  unfold obpCreateHandle at create
  split at create
  · contradiction
  cases found : (s.table process).findIdx? (·.isNone) with
  | some i =>
    simp only [found] at create
    cases Option.some.inj create
    cases Option.some.inj rest
    have stored := quiet_setEntry s process i (some ⟨o, desiredAccess⟩)
    have counted := quiet_modify (s.setEntry process i (some ⟨o, desiredAccess⟩)) o
      (f := fun h => { h with handleCount := h.handleCount + 1 }) (fun _ => rfl) (fun _ => rfl) fun _ => rfl
    exact stored.trans counted
  | none =>
    simp only [found] at create
    split at create
    · contradiction
    · cases Option.some.inj create
      obtain ⟨t, released, rfl⟩ := Option.map_eq_some_iff.mp rest
      exact dereference_givenUp temporary released

theorem deleteHandle_quiet {process : Nat} {handle : BitVec 32} {alreadyLocked : Bool}
    (run : obpDeleteHandle s process handle alreadyLocked = some r) : Quiet s r.2 := by
  unfold obpDeleteHandle at run
  split at run
  · cases Option.some.inj run
    exact .refl s
  split at run
  · contradiction
  obtain ⟨entry, there, rfl⟩ := Option.map_eq_some_iff.mp run
  cases entry with
  | none => exact quiet_setLock s process false
  | some entry => exact (quiet_setEntry s process _ none).trans (quiet_setLock _ process false)

end release

theorem referenceByName_quiet {allocated : Nat → Bool} {fuel : Nat} {s : ObjectManager} {objectName : UnicodeString}
    {objectType : Option ObjectType} {requestorMode : ProcessorMode} {parseContext : BitVec 32}
    {r : Status × Option Nat × ObjectManager}
    (run : referenceByName allocated fuel s objectName objectType requestorMode parseContext = some r) :
    (r.2.1 = none ∧ r.2.2 = s) ∨ ∃ o, r.2.1 = some o ∧ r.2.2 = s.obReferenceObject o := by
  obtain ⟨result, looked, rfl⟩ := Option.map_eq_some_iff.mp run
  rcases reparseName_listed looked with ⟨none, same⟩ | ⟨o, found, space, _⟩
  · exact .inl ⟨none, by rw [same]⟩
  · exact .inr ⟨o, found, by rw [space]; rfl⟩

section steps

variable {checked : Bool} {w v : World} {l : Label}

/-- A call that gives up a reference, or none. -/
def Releases (s : ObjectManager) (given : Option (Nat × BitVec 32)) (t : ObjectManager) : Prop :=
  match given with
  | some (o, n) => GivenUp s o n t
  | none => Quiet s t

theorem close_releases {s : ObjectManager} {fuel process : Nat} {handle : BitVec 32}
    (temporary : ∀ o, (s.header o).flags &&& objPermanent = 0) {r : Status × ObjectManager}
    (run : obClose checked fuel s process handle = some r) :
    Releases s (((obpMapHandleToPointer s process handle 0 true).bind (·.2.1)).map fun o =>
      (o, (s.header o).referenceCount)) r.2 := by
  obtain ⟨⟨status, object, locked⟩, mapped, rest⟩ := Option.bind_eq_some_iff.mp run
  rw [mapped]
  cases object with
  | none =>
    cases Option.some.inj rest
    rcases mapHandle_none mapped with rfl | rfl
    · exact .refl _
    · exact quiet_setLock s process true
  | some o =>
    obtain ⟨rfl, _⟩ := mapHandle_entry mapped
    obtain ⟨t, released, deleted⟩ := Option.bind_eq_some_iff.mp rest
    have givenUp : GivenUp (s.setLock process true) o (s.header o).referenceCount t :=
      dereference_givenUp (s := s.setLock process true) (temporary o) released
    have counted := quiet_modify t o (f := fun h => { h with handleCount := h.handleCount - 1 }) (fun _ => rfl)
      (fun _ => rfl) fun _ => rfl
    exact (givenUp.after (quiet_setLock s process true)).and (counted.trans (deleteHandle_quiet deleted))

theorem deleteName_releases {objectName : UnicodeString} {r : Status × ObjectManager}
    (run : obDeleteObject checked l.allocated l.fuel w.manager objectName = some r) :
    Releases w.manager ((l.denoted w.manager objectName).map fun o => (o, (w.manager.header o).referenceCount)) r.2 := by
  obtain ⟨⟨status, object, s⟩, looked, rest⟩ := Option.bind_eq_some_iff.mp run
  have found : l.denoted w.manager objectName = object := by
    obtain ⟨result, inner, same⟩ := Option.map_eq_some_iff.mp looked
    simp only [Label.denoted, inner, Option.bind_some]
    exact (Prod.mk.inj (Prod.mk.inj same).2).1
  rw [found]
  rcases referenceByName_quiet looked with ⟨none, same⟩ | ⟨o, isObject, same⟩
  · simp only at none same
    subst none same
    cases Option.some.inj rest
    exact .refl _
  · simp only at isObject same
    subst isObject same
    have count : ((w.manager.obReferenceObject o).header o).referenceCount =
        (w.manager.header o).referenceCount + 1 := by
      rw [reference_modify, header_modify_self]
    exact (deleteReferenced_givenUp count rest).after (quiet_reference w.manager o)

/-- A handle for a referenced object gives that reference up only where the table is full. -/
theorem openReferenced_releases {s : ObjectManager} {process o fuel : Nat} {desiredAccess : BitVec 32}
    (temporary : ((s.obReferenceObject o).header o).flags &&& objPermanent = 0) {r : Status × ObjectManager}
    (run : openReferenced checked fuel (s.obReferenceObject o) process o desiredAccess = some r) :
    Releases s (if ((s.table process).findIdx? (·.isNone)).isNone then
      some (o, ((s.obReferenceObject o).header o).referenceCount) else none) r.2 := by
  have referenced := quiet_reference s o
  have outcome := openReferenced_givenUp temporary run
  have table : (s.obReferenceObject o).table process = s.table process := rfl
  rw [table] at outcome
  by_cases full : ((s.table process).findIdx? (·.isNone)).isNone = true
  · rw [if_pos full] at outcome ⊢
    exact outcome.after referenced
  · rw [if_neg full] at outcome ⊢
    exact referenced.trans outcome

theorem openByName_releases {process : Nat} {objectName : UnicodeString} {objectType : Option ObjectType}
    {requestorMode : ProcessorMode} {desiredAccess parseContext : BitVec 32}
    (temporary : ∀ o, ((w.manager.obReferenceObject o).header o).flags &&& objPermanent = 0) {r : Status × ObjectManager}
    (run : obOpenObjectByName checked l.allocated l.fuel w.manager process objectName objectType requestorMode
      desiredAccess parseContext = some r) :
    Releases w.manager (if ((w.manager.table process).findIdx? (·.isNone)).isNone then
      (referenceByName l.allocated l.fuel w.manager objectName objectType requestorMode parseContext).bind fun r =>
        r.2.1.map fun o => (o, (r.2.2.header o).referenceCount) else none) r.2 := by
  obtain ⟨⟨status, object, s⟩, looked, rest⟩ := Option.bind_eq_some_iff.mp run
  rw [looked]
  rcases referenceByName_quiet looked with ⟨none, same⟩ | ⟨o, isObject, same⟩
  · simp only at none same
    subst none same
    cases Option.some.inj rest
    simp only [Option.bind_some, Option.map_none, ite_self]
    exact .refl _
  · simp only at isObject same
    subst isObject same
    exact openReferenced_releases (temporary o) rest

theorem openByPointer_releases {process o : Nat} {objectType : Option ObjectType} {requestorMode : ProcessorMode}
    {desiredAccess : BitVec 32} (temporary : ((w.manager.obReferenceObject o).header o).flags &&& objPermanent = 0)
    {r : Status × ObjectManager}
    (run : obOpenObjectByPointer checked l.fuel w.manager process o objectType requestorMode desiredAccess = some r) :
    Releases w.manager (if ((w.manager.table process).findIdx? (·.isNone)).isNone ∧
        ¬(some (w.manager.header o).objectType ≠ objectType ∧ requestorMode ≠ .kernelMode) then
      some (o, ((w.manager.obReferenceObject o).header o).referenceCount) else none) r.2 := by
  unfold obOpenObjectByPointer at run
  split at run
  case isTrue denied =>
    rw [if_neg fun both => both.2 denied]
    cases Option.some.inj run
    exact .refl _
  case isFalse granted =>
    have outcome := openReferenced_releases temporary run
    simpa only [granted, not_false_iff, and_true] using outcome

theorem referenceByHandle_quiet {process : Nat} {handle desiredAccess : BitVec 32} {s : ObjectManager}
    {r : Status × Option Nat × ObjectManager}
    (run : obReferenceObjectByHandle s process handle desiredAccess = some r) : Quiet s r.2.2 := by
  obtain ⟨⟨status, object, t⟩, entry, rest⟩ := Option.map_eq_some_iff.mp run
  cases object with
  | none =>
    cases rest
    rcases mapHandle_none entry with rfl | rfl
    · exact .refl _
    · exact quiet_setLock s process false
  | some o =>
    cases rest
    obtain ⟨rfl, _⟩ := mapHandle_entry entry
    exact (quiet_setLock s process false).trans (quiet_reference _ o)

/-- Any call but a creation: what it gives up decides whether a deletion begins. -/
theorem step_givenUp (temporary : ∀ o, (w.manager.header o).flags &&& objPermanent = 0)
    (run : step checked w l = some v) (other : ∀ t objectName, l.call ≠ .create t objectName) :
    match l.released w.manager with
    | some (o, n) => GivenUp w.manager o n v.manager
    | none => Quiet w.manager v.manager := by
  have temporary' {o : Nat} {t : ObjectManager} (quiet : Quiet w.manager t) : (t.header o).flags &&& objPermanent = 0 :=
    (quiet.permanent o).trans (temporary o)
  unfold step at run
  unfold Label.released
  cases call : l.call with
  | create objectType objectName => exact absurd call (other objectType objectName)
  | insert directory o =>
    simp only [call] at run ⊢
    split at run
    · cases Option.some.inj run
      exact quiet_insert w.manager directory o
    · contradiction
  | store holder o target =>
    simp only [call] at run ⊢
    split at run
    · cases Option.some.inj run
      exact quiet_store w.manager holder o target
    · contradiction
  | reference o =>
    simp only [call] at run ⊢
    split at run
    · cases Option.some.inj run
      exact quiet_reference w.manager o
    · contradiction
  | dereference o =>
    simp only [call] at run ⊢
    split at run
    · obtain ⟨t, released, rfl⟩ := Option.map_eq_some_iff.mp run
      exact dereference_givenUp (temporary o) released
    · contradiction
  | dereferenceCreation o =>
    simp only [call] at run ⊢
    split at run
    · obtain ⟨t, released, rfl⟩ := Option.map_eq_some_iff.mp run
      exact dereference_givenUp (temporary o) released
    · contradiction
  | deletePointer o =>
    simp only [call] at run ⊢
    split at run
    · obtain ⟨r, deleted, rfl⟩ := Option.map_eq_some_iff.mp run
      exact deleteObject_givenUp (temporary o) deleted
    · contradiction
  | deleteName objectName =>
    simp only [call] at run ⊢
    obtain ⟨r, deleted, rfl⟩ := Option.map_eq_some_iff.mp run
    exact deleteName_releases deleted
  | referenceByName objectName objectType requestorMode parseContext =>
    simp only [call] at run ⊢
    obtain ⟨r, looked, rfl⟩ := Option.map_eq_some_iff.mp run
    rcases referenceByName_quiet looked with ⟨_, same⟩ | ⟨o, _, same⟩
    · simp only [same]
      exact .refl _
    · simp only [same]
      exact quiet_reference w.manager o
  | openByName process objectName objectType requestorMode desiredAccess parseContext =>
    simp only [call] at run ⊢
    obtain ⟨r, opened, rfl⟩ := Option.map_eq_some_iff.mp run
    exact openByName_releases (fun o => temporary' (quiet_reference w.manager o)) opened
  | openByPointer process o objectType requestorMode desiredAccess =>
    simp only [call] at run ⊢
    split at run
    · obtain ⟨r, opened, rfl⟩ := Option.map_eq_some_iff.mp run
      exact openByPointer_releases (temporary' (quiet_reference w.manager o)) opened
    · contradiction
  | referenceByHandle process handle desiredAccess =>
    simp only [call] at run ⊢
    obtain ⟨r, mapped, rfl⟩ := Option.map_eq_some_iff.mp run
    exact referenceByHandle_quiet mapped
  | close process handle =>
    simp only [call] at run ⊢
    obtain ⟨r, closed, rfl⟩ := Option.map_eq_some_iff.mp run
    exact close_releases temporary closed

end steps

theorem LifecycleOk.of_undeleted {c : Lifecycle} (ok : Undeleted c.world.manager c.objectCount) : LifecycleOk c where
  objectCount := ok.counted
  goingAway o := by
    rw [obIsObjectGoingAway_false, ObjectHeader.going, ok.staying]
    simp

theorem lifeStep_iff {checked : Bool} {c d : Lifecycle} {l : Label} (ok : Undeleted c.world.manager c.objectCount)
    (run : lifeStep checked c l = some d) :
    (LeavesReference c l → Undeleted d.world.manager d.objectCount) ∧ (LifecycleOk d → LeavesReference c l) := by
  obtain ⟨w, stepped, rfl⟩ := Option.map_eq_some_iff.mp run
  by_cases other : ∀ t objectName, l.call ≠ .create t objectName
  · have outcome := step_givenUp ok.temporary stepped other
    have same : l.counted c.objectCount = c.objectCount := by
      unfold Label.counted
      cases call : l.call with
      | create objectType objectName => exact absurd call (other objectType objectName)
      | _ => rfl
    have guard : LeavesReference c l ↔ (l.released c.world.manager).all (fun p => p.2 ≠ 1) = true := by
      unfold LeavesReference
      cases call : l.call with
      | create objectType objectName => exact absurd call (other objectType objectName)
      | _ => exact and_iff_left trivial
    rw [guard]
    cases released : l.released c.world.manager with
    | none =>
      rw [released] at outcome
      constructor
      · intro _
        rw [same]
        exact ok.quiet outcome
      · exact fun _ => rfl
    | some p =>
      obtain ⟨o, n⟩ := p
      rw [released] at outcome
      simp only [Option.all_some, decide_eq_true_iff]
      constructor
      · intro more
        rw [same]
        exact ok.quiet (outcome.more more)
      · intro books one
        have told := (books.goingAway o).mpr (outcome.last one)
        exact Bool.false_ne_true ((obIsObjectGoingAway_false _ o).symm.trans told)
  · push Not at other
    obtain ⟨objectType, objectName, call⟩ := other
    simp only [step, call] at stepped
    cases Option.some.inj stepped
    simp only [LeavesReference, Label.released, Label.counted, call, Option.all_none, true_and]
    constructor
    · intro room
      exact ok.create room
    · intro books allocated last
      have count := books.objectCount objectType
      simp only [allocated] at count
      exact create_overflow ok last count

theorem init_undeleted (processes : Nat) :
    Undeleted (Lifecycle.init processes).world.manager (Lifecycle.init processes).objectCount where
  kept _ := rfl
  staying _ := BitVec.zero_and
  temporary _ := BitVec.zero_and
  counted t := by
    have one : (Finset.range (Lifecycle.init processes).world.manager.created) = {0} := rfl
    have type : ((Lifecycle.init processes).world.manager.header 0).objectType = .directory := rfl
    have kept : (Lifecycle.init processes).world.manager.freed 0 = false := rfl
    rw [ObjectManager.live, one, Finset.filter_singleton, type]
    by_cases directory : t = .directory
    · simp [Lifecycle.init, directory, World.init]
    · simp [Lifecycle.init, directory, Ne.symm directory]

/-- While no call has given up a last reference the books are right, and after the next call they are right
exactly if that call gives up none either. -/
theorem lifecycle_iff (checked : Bool) (processes : Nat) {c : Lifecycle} {calls : List Label}
    (run : Run (Guarded LeavesReference fun c l d => lifeStep checked c l = some d) (Lifecycle.init processes) calls c) :
    LifecycleOk c ∧ ∀ l d, lifeStep checked c l = some d → (LifecycleOk d ↔ LeavesReference c l) := by
  have ok : Undeleted c.world.manager c.objectCount :=
    run.invariant (I := fun c => Undeleted c.world.manager c.objectCount)
      (fun ok guarded => (lifeStep_iff ok guarded.2).1 guarded.1) (init_undeleted processes)
  refine ⟨.of_undeleted ok, fun l d next => ?_⟩
  obtain ⟨keeps, breaks⟩ := lifeStep_iff ok next
  exact ⟨breaks, fun guard => .of_undeleted (keeps guard)⟩

/-- An object is created, used and left in place. -/
def quietLife : List Call := [.create (.other 7) nameObject, .insert 0 1, .reference 1, .dereference 1]

theorem quietLife_books : ∃ c : Lifecycle,
    Run (Guarded LeavesReference fun c l d => lifeStep true c l = some d) (Lifecycle.init 1)
      (quietLife.map Call.plain) c ∧
    c.objectCount (.other 7) = 1 ∧
    (LifecycleOk c ∧ ∀ l d, lifeStep true c l = some d → (LifecycleOk d ↔ LeavesReference c l)) := by
  have finishes : (exec (guarded LeavesReference (lifeStep true)) (Lifecycle.init 1) (quietLife.map Call.plain)).map
      (fun c => c.objectCount (.other 7)) = some 1 := by decide
  obtain ⟨c, run, count⟩ := Option.map_eq_some_iff.mp finishes
  exact ⟨c, guarded_run run, count, lifecycle_iff true 1 (guarded_run run)⟩

/-- A created object is deleted: its type goes on counting it, and it is not told to be going away. -/
theorem deleted_books : LifecycleOk (Lifecycle.init 1) ∧ ∀ checked : Bool, ∃ c : Lifecycle,
    Run (fun c l d => lifeStep checked c l = some d) (Lifecycle.init 1)
      ([.create (.other 7) nameObject, .deletePointer 1].map Call.plain) c ∧
    (c.objectCount (.other 7)).toNat ≠ (c.world.manager.live (.other 7)).card ∧
    ((c.world.manager.header 1).going ∧ obIsObjectGoingAway c.world.manager 1 = false) ∧ ¬LifecycleOk c := by
  refine ⟨.of_undeleted (init_undeleted 1), ?_⟩
  intro checked
  have finishes : (exec (lifeStep checked) (Lifecycle.init 1)
      ([.create (.other 7) nameObject, .deletePointer 1].map Call.plain)).map
      (fun c => (c.objectCount (.other 7), (c.world.manager.live (.other 7)).card,
        decide (c.world.manager.header 1).going)) = some (1, 0, true) := by
    revert checked
    decide
  obtain ⟨c, run, ends⟩ := Option.map_eq_some_iff.mp finishes
  simp only [Prod.mk.injEq] at ends
  obtain ⟨count, none, going⟩ := ends
  have wrong : (c.objectCount (.other 7)).toNat ≠ (c.world.manager.live (.other 7)).card := by
    rw [count, none]
    decide
  exact ⟨c, exec_run.mp run, wrong, ⟨of_decide_eq_true going, obIsObjectGoingAway_false _ 1⟩,
    fun books => wrong (books.objectCount (.other 7))⟩

end Gr8os.Ob
