import Mathlib.Algebra.GroupWithZero.Nat
import Gr8os.Lib.Run
import Gr8os.Lib.Slots
import Gr8os.Ob.Accounts

/-! Clients of the object manager over whole runs: an object is not freed while a reference on it is out. -/
namespace Gr8os.Ob

open Runs

theorem sum_map_set {α : Type} (f : α → Nat) (l : List α) (i : Nat) {old : α} (there : l[i]? = some old) (new : α) :
    ((l.set i new).map f).sum + f old = (l.map f).sum + f new := by
  induction l generalizing i with
  | nil => contradiction
  | cons a l ih =>
    cases i with
    | zero =>
      cases Option.some.inj there
      simp only [List.set_cons_zero, List.map_cons, List.sum_cons]
      omega
    | succ i =>
      have rest := ih i there
      simp only [List.set_cons_succ, List.map_cons, List.sum_cons]
      omega

def refers (entry : Option ObjectHandle) (q : Nat) : Nat := (entry.map (·.object)).toList.count q

/-- How many open handles stand for an object. -/
def handlesOn (handleTables : List (List (Option ObjectHandle))) (q : Nat) : Nat :=
  (handleTables.map fun table => (table.map fun entry => refers entry q).sum).sum

theorem handlesOn_setEntry {s : ObjectManager} {process i : Nat} {old : Option ObjectHandle}
    (there : (s.table process)[i]? = some old) (entry : Option ObjectHandle) (q : Nat) :
    handlesOn (s.setEntry process i entry).handleTables q + refers old q =
      handlesOn s.handleTables q + refers entry q := by
  have table : s.handleTables[process]? = some (s.table process) := by
    unfold ObjectManager.table at there ⊢
    rw [List.getD_eq_getElem?_getD] at there ⊢
    cases found : s.handleTables[process]? with
    | none => simp [found] at there
    | some table => rfl
  have inner := sum_map_set (fun entry => refers entry q) (s.table process) i there entry
  have outer := sum_map_set (fun table => (table.map fun entry => refers entry q).sum) s.handleTables process table
    ((s.table process).set i entry)
  simp only [handlesOn, ObjectManager.setEntry]
  omega

theorem handlesOn_store {s : ObjectManager} {process i : Nat}
    (free : (s.table process).findIdx? (·.isNone) = some i) (o : Nat) (grantedAccess : BitVec 32) (q : Nat) :
    handlesOn (s.setEntry process i (some ⟨o, grantedAccess⟩)).handleTables q =
      handlesOn s.handleTables q + [o].count q := by
  have counts := handlesOn_setEntry (Slots.get_of_free free) (some ⟨o, grantedAccess⟩) q
  simp only [refers, Option.map_none, Option.toList_none, List.count_nil, Option.map_some, Option.toList_some] at counts
  exact counts

theorem handlesOn_clear {s : ObjectManager} {process i : Nat} {entry : ObjectHandle}
    (there : (s.table process)[i]? = some (some entry)) (q : Nat) :
    handlesOn (s.setEntry process i none).handleTables q + [entry.object].count q = handlesOn s.handleTables q := by
  have counts := handlesOn_setEntry there none q
  simp only [refers, Option.map_none, Option.toList_none, List.count_nil, Option.map_some, Option.toList_some] at counts
  exact counts

section handles

variable {s : ObjectManager} {base : Nat → Nat} {checked : Bool} {fuel process o : Nat} {handle access : BitVec 32}

/-- A new handle keeps the reference that was taken for it. -/
theorem Accounted.openReferenced (ok : Accounted s fun q => base q + handlesOn s.handleTables q + [o].count q)
    {r : Status × ObjectManager} (run : openReferenced checked fuel s process o access = some r) :
    Accounted r.2 fun q => base q + handlesOn r.2.handleTables q := by
  obtain ⟨created, create, rest⟩ := Option.bind_eq_some_iff.mp run
  unfold obpCreateHandle at create
  split at create
  · contradiction
  split at create
  · rename_i i free
    cases Option.some.inj create
    cases Option.some.inj rest
    have counts := handlesOn_store free o access
    have stored : Accounted (s.setEntry process i (some ⟨o, access⟩))
        fun q => base q + handlesOn (s.setEntry process i (some ⟨o, access⟩)).handleTables q :=
      (ok.setEntry process i (some ⟨o, access⟩)).congr fun q => by
        rw [counts, Nat.add_assoc]
    exact stored.modify o (f := fun h => { h with handleCount := h.handleCount + 1 })
      (fun _ => rfl) (fun _ => rfl) (fun _ => rfl) (fun _ => rfl) (fun _ => rfl) fun _ => rfl
  · split at create
    · contradiction
    · cases Option.some.inj create
      obtain ⟨t, released, rfl⟩ := Option.map_eq_some_iff.mp rest
      obtain ⟨after, tables⟩ := ok.dereference released
      exact after.congr fun q => by rw [tables]

theorem mapHandle_entry {status : Status} {keepLock : Bool} {t : ObjectManager}
    (mapped : obpMapHandleToPointer s process handle access keepLock = some (status, some o, t)) :
    t = s.setLock process keepLock ∧ ¬0xFFFF < handle &&& 0xFFFFFFF ∧
    ∃ entry, handleEntry s process handle = some (some entry) ∧ entry.object = o := by
  unfold obpMapHandleToPointer at mapped
  split at mapped
  · cases (Prod.mk.inj (Prod.mk.inj (Option.some.inj mapped)).2).1
  rename_i inRange
  split at mapped
  · contradiction
  obtain ⟨entry, there, rest⟩ := Option.map_eq_some_iff.mp mapped
  cases entry with
  | none => cases (Prod.mk.inj (Prod.mk.inj rest).2).1
  | some entry =>
    simp only at rest
    split at rest
    · cases (Prod.mk.inj (Prod.mk.inj rest).2).1
    · obtain ⟨object, same⟩ := Prod.mk.inj (Prod.mk.inj rest).2
      exact ⟨same.symm, inRange, entry, there, Option.some.inj object⟩

theorem mapHandle_none {status : Status} {keepLock : Bool} {t : ObjectManager}
    (mapped : obpMapHandleToPointer s process handle access keepLock = some (status, none, t)) :
    t = s ∨ t = s.setLock process keepLock := by
  unfold obpMapHandleToPointer at mapped
  split at mapped
  · exact .inl (Prod.mk.inj (Prod.mk.inj (Option.some.inj mapped)).2).2.symm
  split at mapped
  · contradiction
  obtain ⟨entry, there, rest⟩ := Option.map_eq_some_iff.mp mapped
  cases entry with
  | none => exact .inr (Prod.mk.inj (Prod.mk.inj rest).2).2.symm
  | some entry =>
    simp only at rest
    split at rest
    · exact .inr (Prod.mk.inj (Prod.mk.inj rest).2).2.symm
    · cases (Prod.mk.inj (Prod.mk.inj rest).2).1

theorem Accounted.close (ok : Accounted s fun q => base q + handlesOn s.handleTables q) {r : Status × ObjectManager}
    (run : obClose checked fuel s process handle = some r) :
    Accounted r.2 fun q => base q + handlesOn r.2.handleTables q := by
  obtain ⟨⟨status, object, locked⟩, mapped, rest⟩ := Option.bind_eq_some_iff.mp run
  cases object with
  | none =>
    cases Option.some.inj rest
    rcases mapHandle_none mapped with rfl | rfl
    · exact ok
    · exact ok.setLock process true
  | some o =>
    obtain ⟨rfl, inRange, entry, there, isObject⟩ := mapHandle_entry mapped
    have counts := handlesOn_clear there
    have holds : Accounted (s.setLock process true) fun q =>
        base q + handlesOn (s.setEntry process (handle - 1).toNat none).handleTables q + [o].count q :=
      (ok.setLock process true).congr fun q => by
        rw [← counts q, isObject, Nat.add_assoc]
    obtain ⟨t, released, deleted⟩ := Option.bind_eq_some_iff.mp rest
    obtain ⟨after, tables⟩ := holds.dereference released
    let u := t.modify o fun h => { h with handleCount := h.handleCount - 1 }
    have uOk := after.modify o (f := fun h => { h with handleCount := h.handleCount - 1 })
      (fun _ => rfl) (fun _ => rfl) (fun _ => rfl) (fun _ => rfl) (fun _ => rfl) fun _ => rfl
    have sameTables : u.handleTables = s.handleTables := tables
    have sameEntry : handleEntry u process handle = some (some entry) := by
      simp only [handleEntry, ObjectManager.table, sameTables]
      exact there
    have deletes : obpDeleteHandle u process handle true =
        some (.success, (u.setEntry process (handle - 1).toNat none).setLock process false) := by
      unfold obpDeleteHandle
      rw [if_neg inRange, sameEntry]
      rfl
    cases Option.some.inj (deletes.symm.trans deleted)
    have tables' : (u.setEntry process (handle - 1).toNat none).handleTables =
        (s.setEntry process (handle - 1).toNat none).handleTables := by
      simp only [ObjectManager.setEntry, ObjectManager.table, sameTables]
    have cleared := (uOk.setEntry process (handle - 1).toNat none).setLock process false
    exact cleared.congr fun q => congrArg (base q + handlesOn · q) tables'.symm

end handles

inductive Call
  | create (objectType : ObjectType) (objectName : List WChar)
  | insert (directory o : Nat)
  | store (holder o : Nat) (target : List WChar)
  | reference (o : Nat)
  | dereference (o : Nat)
  | dereferenceCreation (o : Nat)
  | deletePointer (o : Nat)
  | deleteName (objectName : UnicodeString)
  | referenceByName (objectName : UnicodeString) (objectType : Option ObjectType) (requestorMode : ProcessorMode)
      (parseContext : BitVec 32)
  | openByName (process : Nat) (objectName : UnicodeString) (objectType : Option ObjectType)
      (requestorMode : ProcessorMode) (desiredAccess parseContext : BitVec 32)
  | openByPointer (process o : Nat) (objectType : Option ObjectType) (requestorMode : ProcessorMode)
      (desiredAccess : BitVec 32)
  | referenceByHandle (process : Nat) (handle desiredAccess : BitVec 32)
  | close (process : Nat) (handle : BitVec 32)

/-- A call, with the answers of the heap to it and a bound on its recursion. -/
structure Label where
  call : Call
  allocated : Nat → Bool
  fuel : Nat

/-- The object manager and what its clients hold: the reference of ObCreateObject, until a deletion is asked
for or the creator releases it, and the references taken since. -/
structure World where
  manager : ObjectManager
  creation : Nat → Bool
  taken : Nat → Nat

def World.Live (w : World) (o : Nat) : Prop := o < w.manager.created ∧ w.manager.freed o = false

instance (w : World) (o : Nat) : Decidable (w.Live o) := inferInstanceAs (Decidable (_ ∧ _))

def gain (taken : Nat → Nat) (o : Option Nat) : Nat → Nat := fun q => taken q + o.toList.count q

def lose (taken : Nat → Nat) (o : Nat) : Nat → Nat := fun q => taken q - [o].count q

def endCreation (creation : Nat → Bool) (o : Option Nat) : Nat → Bool := fun q => creation q && some q ≠ o

/-- The object that ObDeleteObject finds. -/
def Label.denoted (l : Label) (s : ObjectManager) (objectName : UnicodeString) : Option Nat :=
  (obReferenceObjectByName l.allocated s.space l.fuel objectName none .kernelMode 1).bind (·.object)

/-- One call by clients that pass pointers to storage in use, insert an object once, into a directory, and
release only what they hold. -/
def step (checked : Bool) (w : World) (l : Label) : Option World :=
  let s := w.manager
  match l.call with
  | .create objectType objectName =>
    let (_, o, s) := obCreateObject (l.allocated 0) s objectType objectName
    some { w with manager := s, creation := fun q => w.creation q || some q = o }
  | .insert directory o =>
    if w.Live directory ∧ (s.header directory).objectType = .directory ∧ w.Live o ∧ (s.header o).parentDirectory = none then
      some { w with manager := obInsertObject s directory o }
    else none
  | .store holder o target =>
    if w.Live holder ∧ 0 < w.taken o then
      some { w with manager := storePointer s holder o target, taken := lose w.taken o }
    else none
  | .reference o =>
    if w.Live o then some { w with manager := s.obReferenceObject o, taken := gain w.taken (some o) } else none
  | .dereference o =>
    if 0 < w.taken o then
      (obDereferenceObject checked l.fuel s o).map fun s => { w with manager := s, taken := lose w.taken o }
    else none
  | .dereferenceCreation o =>
    if w.creation o then
      (obDereferenceObject checked l.fuel s o).map fun s =>
        { w with manager := s, creation := endCreation w.creation (some o) }
    else none
  | .deletePointer o =>
    if w.Live o then
      (obpDeleteObject checked l.fuel s o).map fun r =>
        { w with manager := r.2, creation := endCreation w.creation (some o) }
    else none
  | .deleteName objectName =>
    (obDeleteObject checked l.allocated l.fuel s objectName).map fun r =>
      { w with manager := r.2, creation := endCreation w.creation (l.denoted s objectName) }
  | .referenceByName objectName objectType requestorMode parseContext =>
    (referenceByName l.allocated l.fuel s objectName objectType requestorMode parseContext).map fun r =>
      { w with manager := r.2.2, taken := gain w.taken r.2.1 }
  | .openByName process objectName objectType requestorMode desiredAccess parseContext =>
    (obOpenObjectByName checked l.allocated l.fuel s process objectName objectType requestorMode desiredAccess
      parseContext).map fun r => { w with manager := r.2 }
  | .openByPointer process o objectType requestorMode desiredAccess =>
    if w.Live o then
      (obOpenObjectByPointer checked l.fuel s process o objectType requestorMode desiredAccess).map fun r =>
        { w with manager := r.2 }
    else none
  | .referenceByHandle process handle desiredAccess =>
    (obReferenceObjectByHandle s process handle desiredAccess).map fun r =>
      { w with manager := r.2.2, taken := gain w.taken r.2.1 }
  | .close process handle => (obClose checked l.fuel s process handle).map fun r => { w with manager := r.2 }

/-- The root directory, after ObInitSystem, and empty handle tables of OB_INITIAL_HANDLES entries. -/
def World.init (processes : Nat) : World where
  manager :=
    { space :=
        { object := fun o => { objectName := [], referenceCount := if o = 0 then 1 else 0, body := .directory [] }
          obRootObjectDirectory := 0 }
      created := 1
      freed := fun _ => false
      handleTables := List.replicate processes (List.replicate 128 none)
      tableLocked := fun _ => false }
  creation o := o = 0
  taken _ := 0

def World.outer (w : World) (q : Nat) : Nat :=
  (w.creation q).toNat + w.taken q + handlesOn w.manager.handleTables q

theorem lose_count {taken : Nat → Nat} {o : Nat} (held : 0 < taken o) (q : Nat) :
    taken q = lose taken o q + [o].count q := by
  unfold lose
  rcases Decidable.em (q = o) with rfl | other
  · rw [List.count_singleton_self]
    omega
  · have apart : [o].count q = 0 := List.count_eq_zero.mpr (by simpa using other)
    omega

theorem endCreation_count {creation : Nat → Bool} {o : Nat} (held : creation o = true) (q : Nat) :
    (creation q).toNat = (endCreation creation (some o) q).toNat + [o].count q := by
  unfold endCreation
  rcases Decidable.em (q = o) with rfl | other
  · simp [held]
  · have apart : [o].count q = 0 := List.count_eq_zero.mpr (by simpa using other)
    simp [other, apart]

theorem beginCreation_count {creation : Nat → Bool} {o : Nat} (fresh : creation o = false) (q : Nat) :
    (creation q || some q = some o).toNat = (creation q).toNat + [o].count q := by
  rcases Decidable.em (q = o) with rfl | other
  · simp [fresh]
  · have apart : [o].count q = 0 := List.count_eq_zero.mpr (by simpa using other)
    simp [other, apart]

/-- A deletion finds the reference of ObCreateObject still there. -/
def World.creationThere (w : World) (l : Label) : Bool :=
  match l.call with
  | .deletePointer o => w.creation o
  | .deleteName objectName => (l.denoted w.manager objectName).all w.creation
  | _ => true

/-- No count is at the top of its range, and a deletion is asked for only while the reference of
ObCreateObject is there. -/
def DeletedOnce (w : World) (l : Label) : Prop :=
  (∀ o < w.manager.created, (w.manager.header o).referenceCount ≠ 0xFFFFFFFF) ∧ w.creationThere l = true

instance (w : World) (l : Label) : Decidable (DeletedOnce w l) := inferInstanceAs (Decidable (_ ∧ _))

def World.Consistent (w : World) : Prop := Accounted w.manager w.outer

section steps

variable {checked : Bool} {w : World} {l : Label} {r : Status × ObjectManager} {named : Status × Option Nat × ObjectManager}
  {o : Nat}

theorem World.Consistent.alive (ok : w.Consistent) (live : w.Live o) : o ∈ w.manager.alive :=
  Accounted.alive ok live.1 live.2

theorem World.Consistent.of_accounted {v : World} {outer : Nat → Nat} (ok : Accounted v.manager outer)
    (same : ∀ q, outer q = v.outer q) : v.Consistent :=
  ok.congr same

theorem World.Consistent.create (ok : w.Consistent) {allocated : Bool} {objectType : ObjectType}
    {objectName : List WChar} (run : obCreateObject allocated w.manager objectType objectName = named) :
    World.Consistent { w with manager := named.2.2, creation := fun q => w.creation q || some q = named.2.1 } := by
  obtain ⟨tables, created⟩ := Accounted.create ok run
  obtain ⟨_, object, s⟩ := named
  have tables : s.handleTables = w.manager.handleTables := tables
  cases object with
  | none => exact .of_accounted created fun q => by simp only [World.outer]; rw [tables]; simp
  | some p =>
    obtain ⟨fresh, created⟩ := created
    have unheld : w.outer p = 0 := (ok.counted.unreferenced fresh).1
    have notCreation : w.creation p = false := by
      cases held : w.creation p with
      | false => rfl
      | true =>
        simp only [World.outer, held, Bool.toNat_true] at unheld
        omega
    refine .of_accounted created fun q => ?_
    have count := beginCreation_count notCreation q
    change (w.creation q).toNat + w.taken q + handlesOn w.manager.handleTables q + [p].count q =
      (w.creation q || some q = some p).toNat + w.taken q + handlesOn s.handleTables q
    rw [tables, count]
    omega

theorem World.Consistent.dereference (ok : w.Consistent) {fuel : Nat} (held : 0 < w.taken o) {t : ObjectManager}
    (run : obDereferenceObject checked fuel w.manager o = some t) :
    World.Consistent { w with manager := t, taken := lose w.taken o } := by
  have before : Accounted w.manager fun q =>
      (w.creation q).toNat + lose w.taken o q + handlesOn w.manager.handleTables q + [o].count q :=
    ok.congr fun q => by
      have count := lose_count held q
      simp only [World.outer]
      omega
  obtain ⟨after, tables⟩ := before.dereference run
  exact .of_accounted after fun q => by rw [World.outer, tables]

/-- The reference of ObCreateObject is given up by a call that takes one reference away. -/
theorem World.Consistent.endCreation (ok : w.Consistent) (held : w.creation o = true) {t : ObjectManager}
    (call : ∀ {outer : Nat → Nat}, Accounted w.manager (fun q => outer q + [o].count q) →
      Accounted t outer ∧ t.handleTables = w.manager.handleTables) :
    World.Consistent { w with manager := t, creation := endCreation w.creation (some o) } := by
  have before : Accounted w.manager fun q =>
      (Ob.endCreation w.creation (some o) q).toNat + w.taken q + handlesOn w.manager.handleTables q + [o].count q :=
    ok.congr fun q => by
      have count := endCreation_count held q
      simp only [World.outer]
      omega
  obtain ⟨after, tables⟩ := call before
  exact .of_accounted after fun q => by rw [World.outer, tables]

theorem World.Consistent.reference (ok : w.Consistent) (guard : DeletedOnce w l) (alive : o ∈ w.manager.alive) :
    World.Consistent { w with manager := w.manager.obReferenceObject o, taken := gain w.taken (some o) } := by
  have after := Accounted.reference ok alive (guard.1 o (mem_alive.mp alive).1)
  refine .of_accounted after fun q => ?_
  have tables : (w.manager.obReferenceObject o).handleTables = w.manager.handleTables := rfl
  simp only [World.outer, gain, Option.toList_some, tables]
  omega

theorem World.Consistent.deleteName (ok : w.Consistent) (guard : DeletedOnce w l) {objectName : UnicodeString}
    (call : l.call = .deleteName objectName)
    (run : obDeleteObject checked l.allocated l.fuel w.manager objectName = some r) :
    World.Consistent
      { w with manager := r.2, creation := Ob.endCreation w.creation (l.denoted w.manager objectName) } := by
  obtain ⟨named, looked, rest⟩ := Option.bind_eq_some_iff.mp run
  have found : l.denoted w.manager objectName = named.2.1 := by
    obtain ⟨result, inner, rfl⟩ := Option.map_eq_some_iff.mp looked
    simp only [Label.denoted, inner, Option.bind_some]
  obtain ⟨tables, outcome⟩ := Accounted.referenceByName ok guard.1 looked
  obtain ⟨status, object, s⟩ := named
  rw [found]
  rcases outcome with ⟨none, same⟩ | ⟨o, isObject, after⟩
  · simp only at none same
    subst none same
    cases Option.some.inj rest
    exact .of_accounted ok fun q => by simp [World.outer, Ob.endCreation]
  · simp only at isObject
    subst isObject
    have held : w.creation o = true := by
      have there := guard.2
      simp only [World.creationThere, call, found, Option.all_some] at there
      exact there
    have before : Accounted s fun q =>
        (Ob.endCreation w.creation (some o) q).toNat + w.taken q + handlesOn w.manager.handleTables q +
          [o].count q + [o].count q :=
      after.congr fun q => by
        have count := endCreation_count held q
        simp only [World.outer]
        omega
    obtain ⟨after, tables'⟩ := before.deleteReferenced rest
    exact .of_accounted after fun q => by rw [World.outer, tables', tables]

theorem World.Consistent.referenceByName (ok : w.Consistent) (guard : DeletedOnce w l) {objectName : UnicodeString}
    {objectType : Option ObjectType} {requestorMode : ProcessorMode} {parseContext : BitVec 32}
    (run : referenceByName l.allocated l.fuel w.manager objectName objectType requestorMode parseContext = some named) :
    World.Consistent { w with manager := named.2.2, taken := gain w.taken named.2.1 } := by
  obtain ⟨tables, outcome⟩ := Accounted.referenceByName ok guard.1 run
  obtain ⟨status, object, s⟩ := named
  rcases outcome with ⟨none, same⟩ | ⟨o, isObject, after⟩
  · simp only at none same
    subst none same
    exact .of_accounted ok fun q => by simp [World.outer, gain]
  · simp only at isObject tables
    subst isObject
    refine .of_accounted after fun q => ?_
    simp only [World.outer, gain, Option.toList_some, tables]
    omega

theorem openReferenced_consistent {s : ObjectManager} {fuel process : Nat}
    {desiredAccess : BitVec 32} (tables : s.handleTables = w.manager.handleTables)
    (referenced : Accounted s fun q => w.outer q + [o].count q)
    (run : openReferenced checked fuel s process o desiredAccess = some r) : World.Consistent { w with manager := r.2 } := by
  have before : Accounted s fun q => (w.creation q).toNat + w.taken q + handlesOn s.handleTables q + [o].count q :=
    referenced.congr fun q => by rw [World.outer, tables]
  exact .of_accounted (before.openReferenced run) fun q => rfl

theorem World.Consistent.storePointer (ok : w.Consistent) {holder o : Nat} {target : List WChar} (live : w.Live holder)
    (held : 0 < w.taken o) :
    World.Consistent { w with manager := storePointer w.manager holder o target, taken := lose w.taken o } := by
  have before : Accounted w.manager fun q =>
      (w.creation q).toNat + lose w.taken o q + handlesOn w.manager.handleTables q + [o].count q :=
    Accounted.congr ok fun q => by
      have count := lose_count held q
      simp only [World.outer]
      omega
  exact .of_accounted (before.store (ok.alive live) target) fun _ => rfl

theorem World.Consistent.openByName (ok : w.Consistent) (guard : DeletedOnce w l) {process : Nat}
    {objectName : UnicodeString} {objectType : Option ObjectType} {requestorMode : ProcessorMode}
    {desiredAccess parseContext : BitVec 32}
    (run : obOpenObjectByName checked l.allocated l.fuel w.manager process objectName objectType requestorMode
      desiredAccess parseContext = some r) : World.Consistent { w with manager := r.2 } := by
  obtain ⟨⟨status, object, s⟩, looked, rest⟩ := Option.bind_eq_some_iff.mp run
  obtain ⟨tables, outcome⟩ := Accounted.referenceByName ok guard.1 looked
  rcases outcome with ⟨none, same⟩ | ⟨o, isObject, referenced⟩
  · simp only at none same
    subst none same
    cases Option.some.inj rest
    exact ok
  · simp only at isObject
    subst isObject
    exact openReferenced_consistent tables referenced rest

theorem World.Consistent.openByPointer (ok : w.Consistent) (guard : DeletedOnce w l) {process o : Nat} (live : w.Live o)
    {objectType : Option ObjectType} {requestorMode : ProcessorMode} {desiredAccess : BitVec 32}
    (run : obOpenObjectByPointer checked l.fuel w.manager process o objectType requestorMode desiredAccess = some r) :
    World.Consistent { w with manager := r.2 } := by
  unfold obOpenObjectByPointer at run
  split at run
  · cases Option.some.inj run
    exact ok
  · have referenced := Accounted.reference ok (ok.alive live) (guard.1 o live.1)
    exact openReferenced_consistent (w := w) (s := w.manager.obReferenceObject o) rfl referenced run

theorem World.Consistent.referenceByHandle (ok : w.Consistent) (guard : DeletedOnce w l) {process : Nat}
    {handle desiredAccess : BitVec 32}
    (run : obReferenceObjectByHandle w.manager process handle desiredAccess = some named) :
    World.Consistent { w with manager := named.2.2, taken := gain w.taken named.2.1 } := by
  obtain ⟨⟨status, object, t⟩, entry, rest⟩ := Option.map_eq_some_iff.mp run
  cases object with
  | none =>
    cases rest
    rcases mapHandle_none entry with rfl | rfl
    · exact .of_accounted ok fun q => by simp [World.outer, gain]
    · exact .of_accounted (Accounted.setLock ok process false) fun q => by simp [World.outer, gain, ObjectManager.setLock]
  | some o =>
    cases rest
    obtain ⟨rfl, _, found, there, isObject⟩ := mapHandle_entry entry
    have counts := handlesOn_clear there o
    -- the entry is one of the handles, so that the object is held
    have held : 0 < w.outer o := by
      rw [isObject, List.count_singleton_self] at counts
      simp only [World.outer]
      omega
    exact Accounted.setLock (ok.reference guard (Accounted.alive_of_held ok held)) process false

theorem step_consistent {w v : World} {l : Label} (ok : w.Consistent) (guard : DeletedOnce w l)
    (run : step checked w l = some v) : v.Consistent := by
  unfold step at run
  cases call : l.call with
  | create objectType objectName =>
    simp only [call] at run
    cases Option.some.inj run
    exact ok.create rfl
  | insert directory o =>
    simp only [call] at run
    split at run
    · rename_i allowed
      cases Option.some.inj run
      exact .of_accounted (Accounted.insert ok (ok.alive allowed.2.2.1) allowed.2.2.2 directory) fun _ => rfl
    · contradiction
  | store holder o target =>
    simp only [call] at run
    split at run
    · rename_i allowed
      cases Option.some.inj run
      exact ok.storePointer allowed.1 allowed.2
    · contradiction
  | reference o =>
    simp only [call] at run
    split at run
    · rename_i live
      cases Option.some.inj run
      exact ok.reference guard (ok.alive live)
    · contradiction
  | dereference o =>
    simp only [call] at run
    split at run
    · rename_i held
      obtain ⟨t, released, rfl⟩ := Option.map_eq_some_iff.mp run
      exact ok.dereference held released
    · contradiction
  | dereferenceCreation o =>
    simp only [call] at run
    split at run
    · rename_i held
      obtain ⟨t, released, rfl⟩ := Option.map_eq_some_iff.mp run
      exact ok.endCreation held fun before => before.dereference released
    · contradiction
  | deletePointer o =>
    simp only [call] at run
    split at run
    · obtain ⟨r, deleted, rfl⟩ := Option.map_eq_some_iff.mp run
      have held : w.creation o = true := by
        have there := guard.2
        simp only [World.creationThere, call] at there
        exact there
      exact ok.endCreation held fun before => before.deleteObject deleted
    · contradiction
  | deleteName objectName =>
    simp only [call] at run
    obtain ⟨r, deleted, rfl⟩ := Option.map_eq_some_iff.mp run
    exact ok.deleteName guard call deleted
  | referenceByName objectName objectType requestorMode parseContext =>
    simp only [call] at run
    obtain ⟨r, looked, rfl⟩ := Option.map_eq_some_iff.mp run
    exact ok.referenceByName guard looked
  | openByName process objectName objectType requestorMode desiredAccess parseContext =>
    simp only [call] at run
    obtain ⟨r, opened, rfl⟩ := Option.map_eq_some_iff.mp run
    exact ok.openByName guard opened
  | openByPointer process o objectType requestorMode desiredAccess =>
    simp only [call] at run
    split at run
    · rename_i live
      obtain ⟨r, opened, rfl⟩ := Option.map_eq_some_iff.mp run
      exact ok.openByPointer guard live opened
    · contradiction
  | referenceByHandle process handle desiredAccess =>
    simp only [call] at run
    obtain ⟨r, mapped, rfl⟩ := Option.map_eq_some_iff.mp run
    exact ok.referenceByHandle guard mapped
  | close process handle =>
    simp only [call] at run
    obtain ⟨r, closed, rfl⟩ := Option.map_eq_some_iff.mp run
    have after : Accounted r.2 fun q => (w.creation q).toNat + w.taken q + handlesOn r.2.handleTables q :=
      Accounted.close ok closed
    exact .of_accounted after fun _ => rfl

end steps

theorem init_consistent (processes : Nat) : (World.init processes).Consistent := by
  have tables : ∀ q, handlesOn (World.init processes).manager.handleTables q = 0 := by
    intro q
    simp [World.init, handlesOn, refers]
  have header : ∀ o, ((World.init processes).manager.header o).flags &&& objDeleteInProgress = 0 :=
    fun _ => BitVec.zero_and
  have alive : ∀ o, o ∈ (World.init processes).manager.alive ↔ o = 0 := by
    intro o
    rw [mem_alive, ObjectHeader.going]
    constructor
    · exact fun alive => Nat.lt_one_iff.mp alive.1
    · exact fun same => ⟨by rw [same]; exact Nat.one_pos, fun going => going (header o)⟩
  refine ⟨⟨fun _ => List.nodup_nil, fun _ _ member => absurd member List.not_mem_nil, fun _ => BitVec.zero_and,
    fun _ freed => absurd freed Bool.false_ne_true⟩, ⟨fun q => ?_, fun q dead => ?_⟩, fun o bound gone => ?_⟩
  · have inner : (World.init processes).manager.graph.inner q = 0 := Finset.sum_eq_zero fun _ _ => rfl
    rw [inner, World.outer, tables]
    rcases Decidable.em (q = 0) with rfl | other
    · rfl
    · simp [World.init, ObjectManager.graph, ObjectManager.header, other]
  · have other : q ≠ 0 := fun same => dead ((alive q).mpr same)
    simp [World.init, ObjectManager.graph, ObjectManager.header, other]
  · exact absurd ((alive o).mpr (Nat.lt_one_iff.mp bound)) gone

/-- Nothing is left that was taken on an object: not the reference of its creation, none that a client took,
no handle, no pointer in another object. -/
structure World.Unreferenced (w : World) (o : Nat) : Prop where
  creation : w.creation o = false
  taken : w.taken o = 0
  handles : handlesOn w.manager.handleTables o = 0
  references : ∀ p < w.manager.created, w.manager.freed p = false → o ∉ (w.manager.header p).references

/-- An object whose storage is freed has no reference left, through every run in which a deletion is asked
for only while the reference of ObCreateObject is there. -/
theorem freed_unreferenced (checked : Bool) (processes : Nat) {w : World} {calls : List Label}
    (run : Run (Guarded DeletedOnce fun w l v => step checked w l = some v) (World.init processes) calls w) (o : Nat)
    (freed : w.manager.freed o = true) : w.Unreferenced o := by
  have ok : w.Consistent :=
    run.invariant (I := World.Consistent) (fun ok guarded => step_consistent ok guarded.1 guarded.2)
      (init_consistent processes)
  have gone : o ∉ w.manager.alive := (ok.sound.freed o freed).2
  obtain ⟨none, children⟩ := ok.counted.unreferenced gone
  have parts : (w.creation o).toNat + w.taken o + handlesOn w.manager.handleTables o = 0 := none
  refine ⟨?_, by omega, by omega, fun p bound kept => children p (Accounted.alive ok bound kept)⟩
  exact Bool.toNat_eq_zero.mp (by omega)

/-- A call for which the heap has room. -/
def Call.plain (call : Call) : Label := ⟨call, fun _ => true, 4⟩

def nameObject : List WChar := [0x4F]

def pathObject : UnicodeString := rtlInitUnicodeString [backslash, 0x4F]

/-- An object with a client and a handle is deleted by name, and lives on until both let go. -/
def ordinaryLife : List Call :=
  [.create (.other 7) nameObject, .insert 0 1, .referenceByName pathObject none .kernelMode 0,
    .openByName 0 pathObject none .kernelMode 1 0, .deleteName pathObject, .close 0 1, .dereference 1]

theorem ordinaryLife_unreferenced : ∃ w : World,
    Run (Guarded DeletedOnce fun w l v => step true w l = some v) (World.init 1) (ordinaryLife.map Call.plain) w ∧
    w.manager.freed 1 = true ∧ w.Unreferenced 1 := by
  have finishes : (exec (guarded DeletedOnce (step true)) (World.init 1) (ordinaryLife.map Call.plain)).map
      (fun w => w.manager.freed 1) = some true := by decide
  obtain ⟨w, run, freed⟩ := Option.map_eq_some_iff.mp finishes
  exact ⟨w, guarded_run run, freed, freed_unreferenced true 1 (guarded_run run) 1 freed⟩

/-- A client holds a reference on the object while its deletion is asked for twice. -/
def deletedTwice : List Call := [.create (.other 7) nameObject, .reference 1, .deletePointer 1, .deletePointer 1]

/-- The second request frees the storage under the client. -/
theorem deletedTwice_freed : (World.init 1).manager.freed 1 = false ∧ ∀ checked : Bool, ∃ w : World,
    Run (fun w l v => step checked w l = some v) (World.init 1) (deletedTwice.map Call.plain) w ∧
    w.manager.freed 1 = true ∧ w.taken 1 = 1 := by
  refine ⟨rfl, ?_⟩
  intro checked
  have finishes : (exec (step checked) (World.init 1) (deletedTwice.map Call.plain)).map
      (fun w => (w.manager.freed 1, w.taken 1)) = some (true, 1) := by
    revert checked
    decide
  obtain ⟨w, run, ends⟩ := Option.map_eq_some_iff.mp finishes
  obtain ⟨freed, taken⟩ := Prod.mk.inj ends
  exact ⟨w, exec_run.mp run, freed, taken⟩

end Gr8os.Ob
