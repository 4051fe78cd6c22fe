import Gr8os.Lib.LittleEndian
import Gr8os.Ob.Handles

/-! The handle functions over the memory that a handle table lies in, with what they access and how they lock. -/
namespace Gr8os.Ob.TableMemory

open LittleEndian

/-- An array of entries of twelve bytes. -/
structure HandleTable where
  objectTable : Address
  currentSize : Nat
  fits : objectTable.toNat + 12 * currentSize ≤ 2 ^ 32

inductive TableEvent
  | acquire
  | release
  | access (objHandle : Address)
deriving DecidableEq, Repr

/-- What a call returns and leaves. -/
structure Outcome where
  status : Status
  object : Option Address
  memory : Memory
  events : List TableEvent

variable (t : HandleTable) (m : Memory)

/-- The entry that a handle selects; the index is not checked against the table's size. -/
def HandleTable.objHandle (handle : BitVec 32) : Address := t.objectTable + 12 * (handle - 1)

def entryObject (objHandle : Address) : Address := ulong m objHandle

def entryGrantedAccess (objHandle : Address) : BitVec 32 := ulong m (objHandle + 4)

/-- The range check of a handle. -/
def OutOfRange (handle : BitVec 32) : Prop := 0xFFFF < handle &&& 0xFFFFFFF

instance (handle : BitVec 32) : Decidable (OutOfRange handle) := inferInstanceAs (Decidable (_ < _))

def obpDeleteHandle (handle : BitVec 32) (alreadyLocked : Bool) : Outcome :=
  if OutOfRange handle then ⟨.invalidHandle, none, m, []⟩
  else
    let lock := if alreadyLocked then [] else [.acquire]
    if entryObject m (t.objHandle handle) = 0 then
      ⟨.invalidHandle, none, m, lock ++ [.access (t.objHandle handle), .release]⟩
    else ⟨.success, none, setUlong m (t.objHandle handle) 0, lock ++ [.access (t.objHandle handle), .release]⟩

def obpMapHandleToPointer (handle desiredAccess : BitVec 32) (keepLock : Bool) : Outcome :=
  if OutOfRange handle then ⟨.invalidHandle, none, m, []⟩
  else
    let unlock := if keepLock then [] else [.release]
    if entryObject m (t.objHandle handle) = 0 then
      ⟨.invalidHandle, none, m, [.acquire, .access (t.objHandle handle)] ++ unlock⟩
    else if desiredAccess ≠ 0 ∧ entryGrantedAccess m (t.objHandle handle) &&& desiredAccess = 0 then
      ⟨.accessDenied, none, m, [.acquire, .access (t.objHandle handle)] ++ unlock⟩
    else
      ⟨.success, some (entryObject m (t.objHandle handle)), m, [.acquire, .access (t.objHandle handle)] ++ unlock⟩

/-- The dereference, with the deletion it may set off, is a change of the memory. -/
def obClose (dereference : Memory → Address → Memory) (handle : BitVec 32) : Outcome :=
  let mapped := obpMapHandleToPointer t m handle 0 true
  match mapped.object with
  | none => mapped
  | some object =>
    let deleted := obpDeleteHandle t (dereference m object) handle true
    { deleted with events := mapped.events ++ deleted.events }

def obReferenceObjectByHandle (reference : Memory → Address → Memory) (handle desiredAccess : BitVec 32) : Outcome :=
  let mapped := obpMapHandleToPointer t m handle desiredAccess false
  match mapped.object with
  | none => mapped
  | some object => { mapped with memory := reference m object }

/-- The loop of ObpCreateHandle from an entry on: what it accesses, and the first free entry among so many. -/
def firstFree : Nat → BitVec 32 → List TableEvent × Option (BitVec 32)
  | 0, _ => ([], none)
  | n + 1, i =>
    if entryObject m (t.objHandle (i + 1)) = 0 then ([.access (t.objHandle (i + 1))], some i)
    else
      let rest := firstFree n (i + 1)
      (.access (t.objHandle (i + 1)) :: rest.1, rest.2)

/-- The handle, or INVALID_HANDLE_VALUE, with the memory and the events; a checked build does not get past a full table. -/
def obpCreateHandle (checked : Bool) (object grantedAccess owner : BitVec 32) : Option (BitVec 32 × Memory × List TableEvent) :=
  let search := firstFree t m t.currentSize 0
  match search.2 with
  | some i =>
    let objHandle := t.objHandle (i + 1)
    let m := setUlong (setUlong (setUlong m objHandle object) (objHandle + 4) grantedAccess) (objHandle + 8) owner
    some (i + 1, m, [.acquire] ++ search.1 ++ [.release])
  | none => if checked then none else some (-1, m, [.acquire] ++ search.1 ++ [.release])

end Gr8os.Ob.TableMemory
