import Gr8os.Ob.Name

/-! Reference counts, deletion and handles. An object is known by a number: storage that was freed is not
given out under its number again. -/
namespace Gr8os.Ob

structure ObjectHandle where
  object : Nat
  grantedAccess : BitVec 32
deriving DecidableEq, Repr

/-- `handleTables` are the tables of the processes, `tableLocked` tells the locks that a call has left held;
`freed` is the storage given back to the heap. -/
structure ObjectManager where
  space : ObjectSpace
  created : Nat
  freed : Nat → Bool
  handleTables : List (List (Option ObjectHandle))
  tableLocked : Nat → Bool

def objPermanent : BitVec 32 := 0x1

def objDeletePending : BitVec 32 := 0x2

def objDeleteInProgress : BitVec 32 := 0x4

def ObjectManager.header (s : ObjectManager) (o : Nat) : ObjectHeader := s.space.object o

def ObjectManager.modify (s : ObjectManager) (o : Nat) (f : ObjectHeader → ObjectHeader) : ObjectManager :=
  { s with space := { s.space with object := fun p => if p = o then f (s.space.object p) else s.space.object p } }

def ObjectManager.free (s : ObjectManager) (o : Nat) : ObjectManager :=
  { s with freed := fun p => if p = o then true else s.freed p }

/-- The body of a new object, filled with zeroes. -/
def ObjectType.zeroed : ObjectType → Body
  | .directory => .directory []
  | .symbolicLink => .symbolicLink []
  | .device => .device
  | .other n => .other n

def obCreateObject (allocated : Bool) (s : ObjectManager) (objectType : ObjectType) (objectName : List WChar) :
    Status × Option Nat × ObjectManager :=
  if !allocated then (.insufficientResources, none, s)
  else
    let header : ObjectHeader := { objectName, referenceCount := 1, body := objectType.zeroed }
    (.success, some s.created, { s.modify s.created (fun _ => header) with created := s.created + 1 })

def Body.insertTail (o : Nat) : Body → Body
  | .directory objectList => .directory (objectList ++ [o])
  | b => b

def Body.removeEntry (o : Nat) : Body → Body
  | .directory objectList => .directory (objectList.erase o)
  | b => b

def Body.retarget (target : List WChar) : Body → Body
  | .symbolicLink _ => .symbolicLink target
  | b => b

def obInsertObject (s : ObjectManager) (directory o : Nat) : ObjectManager :=
  (s.modify directory fun h => { h with body := h.body.insertTail o }).modify o
    fun h => { h with parentDirectory := some directory }

/-- A creator fills in a pointer that the delete routine of its object dereferences (and the target string
of a symbolic link). -/
def storePointer (s : ObjectManager) (holder o : Nat) (target : List WChar) : ObjectManager :=
  s.modify holder fun h => { h with body := h.body.retarget target, references := h.references ++ [o] }

def ObjectManager.obReferenceObject (s : ObjectManager) (o : Nat) : ObjectManager :=
  { s with space := Ob.obReferenceObject s.space o }

def ObjectManager.decrement (s : ObjectManager) (o : Nat) : ObjectManager :=
  s.modify o fun h => { h with referenceCount := h.referenceCount - 1 }

/-- The test of ObDereferenceObject. -/
def ObjectHeader.Unused (h : ObjectHeader) : Prop :=
  h.referenceCount = 0 ∧ (h.flags &&& objPermanent = 0 ∨ h.flags &&& objDeletePending ≠ 0)

instance (h : ObjectHeader) : Decidable h.Unused := inferInstanceAs (Decidable (_ ∧ _))

/-- ObDereferenceObject, over the deletion that it calls. -/
def dereferenceWith (deleteInternal : ObjectManager → Nat → Option (Status × ObjectManager)) (checked : Bool)
    (s : ObjectManager) (o : Nat) : Option ObjectManager :=
  if ((s.decrement o).header o).Unused then
    if checked ∧ ((s.decrement o).header o).handleCount ≠ 0 then none
    else (deleteInternal (s.decrement o) o).map (·.2)
  else some (s.decrement o)

/-- RemoveEntryList, if the object is in a directory. -/
def ObjectManager.unlink (s : ObjectManager) (o : Nat) : ObjectManager :=
  match (s.header o).parentDirectory with
  | none => s
  | some directory => s.modify directory fun h => { h with body := h.body.removeEntry o }

/-- `fuel` bounds how deep delete routines nest. -/
def obpDeleteObjectInternal (checked : Bool) : Nat → ObjectManager → Nat → Option (Status × ObjectManager)
  | 0, _, _ => none
  | fuel + 1, s, o =>
    if (s.header o).referenceCount ≠ 0 then some (.inUse, s)
    else
      let s := s.modify o fun h => { h with flags := h.flags ||| objDeleteInProgress }
      let s := s.unlink o
      ((s.header o).references.foldlM (dereferenceWith (obpDeleteObjectInternal checked fuel) checked) s).map
        fun s => (.success, s.free o)

def obDereferenceObject (checked : Bool) (fuel : Nat) (s : ObjectManager) (o : Nat) : Option ObjectManager :=
  dereferenceWith (obpDeleteObjectInternal checked fuel) checked s o

/-- The count that is passed is not read. -/
def obDereferenceObjectEx (s : ObjectManager) (o : Nat) (_count : BitVec 32) : ObjectManager :=
  s.modify o fun h => { h with referenceCount := h.referenceCount - 2 }

def markDeletePending (s : ObjectManager) (o : Nat) : ObjectManager :=
  s.modify o fun h => { h with flags := h.flags ||| objDeletePending }

def obpDeleteObject (checked : Bool) (fuel : Nat) (s : ObjectManager) (o : Nat) : Option (Status × ObjectManager) :=
  if 1 < (s.header o).referenceCount then
    (obDereferenceObject checked fuel (markDeletePending s o) o).map fun s => (.pending, s)
  else (obDereferenceObject checked fuel s o).map fun s => (.success, s)

def referenceByName (allocated : Nat → Bool) (fuel : Nat) (s : ObjectManager) (objectName : UnicodeString)
    (objectType : Option ObjectType) (requestorMode : ProcessorMode) (parseContext : BitVec 32) :
    Option (Status × Option Nat × ObjectManager) :=
  (obReferenceObjectByName allocated s.space fuel objectName objectType requestorMode parseContext).map
    fun result => (result.status, result.object, { s with space := result.space })

/-- The part of ObDeleteObject behind the lookup, which has referenced the object. -/
def deleteReferenced (checked : Bool) (fuel : Nat) (s : ObjectManager) (o : Nat) : Option (Status × ObjectManager) :=
  if 2 < (s.header o).referenceCount then some (.success, obDereferenceObjectEx (markDeletePending s o) o 2)
  else (obpDeleteObjectInternal checked fuel (obDereferenceObjectEx s o 2) o).map fun result => (.success, result.2)

def obDeleteObject (checked : Bool) (allocated : Nat → Bool) (fuel : Nat) (s : ObjectManager)
    (objectName : UnicodeString) : Option (Status × ObjectManager) :=
  (referenceByName allocated fuel s objectName none .kernelMode 1).bind fun
    | (status, none, s) => some (status, s)
    | (_, some o, s) => deleteReferenced checked fuel s o

def ObjectManager.table (s : ObjectManager) (process : Nat) : List (Option ObjectHandle) :=
  s.handleTables.getD process []

def ObjectManager.setEntry (s : ObjectManager) (process i : Nat) (entry : Option ObjectHandle) : ObjectManager :=
  { s with handleTables := s.handleTables.set process ((s.table process).set i entry) }

def ObjectManager.setLock (s : ObjectManager) (process : Nat) (held : Bool) : ObjectManager :=
  { s with tableLocked := fun p => if p = process then held else s.tableLocked p }

/-- The first free entry of the table; INVALID_HANDLE_VALUE is `none`. A lock that is held is waited for
without end. -/
def obpCreateHandle (checked : Bool) (s : ObjectManager) (process o : Nat) (grantedAccess : BitVec 32) :
    Option (Option (BitVec 32) × ObjectManager) :=
  if s.tableLocked process then none
  else match (s.table process).findIdx? (·.isNone) with
    | some i => some (some (BitVec.ofNat 32 (i + 1)), s.setEntry process i (some ⟨o, grantedAccess⟩))
    | none => if checked then none else some (none, s)

/-- What follows the reference in ObOpenObjectByName and ObOpenObjectByPointer. -/
def openReferenced (checked : Bool) (fuel : Nat) (s : ObjectManager) (process o : Nat) (desiredAccess : BitVec 32) :
    Option (Status × ObjectManager) :=
  (obpCreateHandle checked s process o desiredAccess).bind fun
    | (none, s) => (obDereferenceObject checked fuel s o).map fun s => (.unsuccessful, s)
    | (some _, s) => some (.success, s.modify o fun h => { h with handleCount := h.handleCount + 1 })

def obOpenObjectByName (checked : Bool) (allocated : Nat → Bool) (fuel : Nat) (s : ObjectManager) (process : Nat)
    (objectName : UnicodeString) (objectType : Option ObjectType) (requestorMode : ProcessorMode)
    (desiredAccess parseContext : BitVec 32) : Option (Status × ObjectManager) :=
  (referenceByName allocated fuel s objectName objectType requestorMode parseContext).bind fun
    | (status, none, s) => some (status, s)
    | (_, some o, s) => openReferenced checked fuel s process o desiredAccess

def obOpenObjectByPointer (checked : Bool) (fuel : Nat) (s : ObjectManager) (process o : Nat)
    (objectType : Option ObjectType) (requestorMode : ProcessorMode) (desiredAccess : BitVec 32) :
    Option (Status × ObjectManager) :=
  if some (s.header o).objectType ≠ objectType ∧ requestorMode ≠ .kernelMode then some (.accessDenied, s)
  else openReferenced checked fuel (s.obReferenceObject o) process o desiredAccess

/-- The entry a handle stands for. Past the end of the table the code reads what lies behind it. -/
def handleEntry (s : ObjectManager) (process : Nat) (handle : BitVec 32) : Option (Option ObjectHandle) :=
  (s.table process)[(handle - 1).toNat]?

/-- With KeepLock the lock is kept, whatever the outcome. -/
def obpMapHandleToPointer (s : ObjectManager) (process : Nat) (handle desiredAccess : BitVec 32) (keepLock : Bool) :
    Option (Status × Option Nat × ObjectManager) :=
  if 0xFFFF < handle &&& 0xFFFFFFF then some (.invalidHandle, none, s)
  else if s.tableLocked process then none
  else (handleEntry s process handle).map fun
    | none => (.invalidHandle, none, s.setLock process keepLock)
    | some entry =>
      if desiredAccess ≠ 0 ∧ entry.grantedAccess &&& desiredAccess = 0 then
        (.accessDenied, none, s.setLock process keepLock)
      else (.success, some entry.object, s.setLock process keepLock)

def obpDeleteHandle (s : ObjectManager) (process : Nat) (handle : BitVec 32) (alreadyLocked : Bool) :
    Option (Status × ObjectManager) :=
  if 0xFFFF < handle &&& 0xFFFFFFF then some (.invalidHandle, s)
  else if !alreadyLocked && s.tableLocked process then none
  else (handleEntry s process handle).map fun
    | none => (.invalidHandle, s.setLock process false)
    | some _ => (.success, (s.setEntry process (handle - 1).toNat none).setLock process false)

def obClose (checked : Bool) (fuel : Nat) (s : ObjectManager) (process : Nat) (handle : BitVec 32) :
    Option (Status × ObjectManager) :=
  (obpMapHandleToPointer s process handle 0 true).bind fun
    | (status, none, s) => some (status, s)
    | (_, some o, s) =>
      (obDereferenceObject checked fuel s o).bind fun s =>
        obpDeleteHandle (s.modify o fun h => { h with handleCount := h.handleCount - 1 }) process handle true

def obReferenceObjectByHandle (s : ObjectManager) (process : Nat) (handle desiredAccess : BitVec 32) :
    Option (Status × Option Nat × ObjectManager) :=
  (obpMapHandleToPointer s process handle desiredAccess false).map fun
    | (status, none, s) => (status, none, s)
    | (status, some o, s) => (status, some o, s.obReferenceObject o)

end Gr8os.Ob
