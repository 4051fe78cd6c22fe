import Mathlib.Logic.Function.Basic
import Gr8os.Ke.ListEntry
import Gr8os.Lib.Run
import Gr8os.Ob.Name

/-! ObCreateDirectory on one thread with lookups, insertions and enumerations on others. A step is one access to
a DirectoryLock or to the list under it, and an object list is linked through its entries. -/
namespace Gr8os.Ob.Publication

open Ke Intrusive Runs

/-- What a link points at: the DirectoryList of an object's header or the ObjectList of a directory's body. -/
inductive Entry
  | null
  | directoryList (o : Nat)
  | objectList (directory : Nat)
deriving DecidableEq, Repr

/-- Why a thread wants the lock of a directory. -/
inductive Job
  | insert (o : Nat)
  | find (objectName : List WChar)
  | query (previousObject : Option Nat)
deriving DecidableEq, Repr

/-- What the job came to when the lock is given back. -/
inductive Outcome
  | inserted (o : Nat)
  | found (o : Nat)
  | nothing
deriving DecidableEq, Repr

inductive Pc
  | idle
  | acquireMutex (directory : Nat) (job : Job)
  | locked (directory : Nat) (job : Job)
  | compare (directory : Nat) (objectName : List WChar) (obj : Entry)
  | releaseMutex (directory : Nat) (outcome : Outcome)
  | initializeListHead (directory : Nat)
  | initializeMutex (directory : Nat)
deriving DecidableEq, Repr

/-- Objects are numbered as ObCreateObject makes them. `mutexReady` tells whether a DirectoryLock was initialised
and `holder` who holds it; `handed` lists the objects that a call returned. -/
structure State where
  pc : Nat → Pc
  created : Nat
  objectName : Nat → List WChar
  isDirectory : Nat → Bool
  owner : Nat → Nat
  parentDirectory : Nat → Option Nat
  links : Links Entry
  mutexReady : Nat → Bool
  holder : Nat → Option Nat
  handed : List Nat

def State.goto (s : State) (t : Nat) (pc : Pc) : State := { s with pc := Function.update s.pc t pc }

def obRootObjectDirectory : Nat := 0

/-- The body is zeroed; the header gets its owner, its name and an empty DirectoryList. -/
def obCreateObject (s : State) (t : Nat) (isDirectory : Bool) (objectName : List WChar) : State :=
  let o := s.created
  { s with
    created := o + 1
    objectName := Function.update s.objectName o objectName
    isDirectory := Function.update s.isDirectory o isDirectory
    owner := Function.update s.owner o t
    parentDirectory := Function.update s.parentDirectory o none
    links := ((initializeListHead s.links (.directoryList o)).setFlink (.objectList o) .null).setBlink (.objectList o) .null
    mutexReady := Function.update s.mutexReady o false }

inductive Call
  | create (isDirectory : Bool) (objectName : List WChar) (insertInto : Option Nat) (allocated : Bool)
  | find (directory : Nat) (objectName : List WChar)
  | query (directory : Nat) (previousObject : Option Nat)
deriving DecidableEq, Repr

/-- ObCreateDirectory, or ObCreateObject and ObInsertObject for an object of another type, up to the parent's
lock; the other two calls begin with it. -/
def State.call (s : State) (t : Nat) : Call → State
  | .create isDirectory objectName insertInto allocated =>
    if !allocated then s
    else (obCreateObject s t isDirectory objectName).goto t
      (.acquireMutex (insertInto.getD obRootObjectDirectory) (.insert s.created))
  | .find directory objectName => s.goto t (.acquireMutex directory (.find objectName))
  | .query directory previousObject => s.goto t (.acquireMutex directory (.query previousObject))

/-- ObQueryDirectoryObject from PreviousObject, or from the head. -/
def queryEntry (directory : Nat) : Option Nat → Entry
  | none => .objectList directory
  | some o => .directoryList o

/-- The next access of a thread. A null pointer and the head of another directory are no objects. -/
def State.step (s : State) (t : Nat) : Option State :=
  match s.pc t with
  | .idle => none
  | .acquireMutex directory job =>
    if s.mutexReady directory = true ∧ s.holder directory = none then
      some { s.goto t (.locked directory job) with holder := Function.update s.holder directory (some t) }
    else none
  | .locked directory (.insert o) =>
    some { s.goto t (.releaseMutex directory (.inserted o)) with
      links := insertTailList s.links (.objectList directory) (.directoryList o)
      parentDirectory := Function.update s.parentDirectory o (some directory) }
  | .locked directory (.find objectName) =>
    some (s.goto t (.compare directory objectName (s.links.flink (.objectList directory))))
  | .locked directory (.query previousObject) =>
    match s.links.flink (queryEntry directory previousObject) with
    | .directoryList o => some (s.goto t (.releaseMutex directory (.found o)))
    | .objectList head => if head = directory then some (s.goto t (.releaseMutex directory .nothing)) else none
    | .null => none
  | .compare directory objectName obj =>
    match obj with
    | .directoryList o =>
      if wcscmp (s.objectName o) objectName = 0 then some (s.goto t (.releaseMutex directory (.found o)))
      else some (s.goto t (.compare directory objectName (s.links.flink (.directoryList o))))
    | .objectList head => if head = directory then some (s.goto t (.releaseMutex directory .nothing)) else none
    | .null => none
  | .releaseMutex directory outcome =>
    let s := { s with holder := Function.update s.holder directory none }
    match outcome with
    | .inserted o => if s.isDirectory o then some (s.goto t (.initializeListHead o)) else some (s.goto t .idle)
    | .found o => some { s.goto t .idle with handed := o :: s.handed }
    | .nothing => some (s.goto t .idle)
  | .initializeListHead directory =>
    some { s.goto t (.initializeMutex directory) with links := initializeListHead s.links (.objectList directory) }
  | .initializeMutex directory =>
    some { s.goto t .idle with
      mutexReady := Function.update s.mutexReady directory true, handed := directory :: s.handed }

inductive Action
  | call (t : Nat) (call : Call)
  | step (t : Nat)
deriving DecidableEq, Repr

def next (s : State) : Action → Option State
  | .call t call => if s.pc t = .idle then some (s.call t call) else none
  | .step t => s.step t

/-- ObInitSystem creates the root and initialises it before anything can reach it. -/
def start : State :=
  let nothing : State := ⟨fun _ => .idle, 0, fun _ => [], fun _ => false, fun _ => 0, fun _ => none,
    ⟨fun _ => .null, fun _ => .null⟩, fun _ => false, fun _ => none, []⟩
  let s := obCreateObject nothing 0 true []
  { s with
    links := initializeListHead s.links (.objectList obRootObjectDirectory)
    mutexReady := Function.update s.mutexReady obRootObjectDirectory true
    handed := [obRootObjectDirectory] }

/-- A directory that some call has returned. -/
def State.Known (s : State) (directory : Nat) : Prop := directory ∈ s.handed ∧ s.isDirectory directory = true

instance (s : State) (directory : Nat) : Decidable (s.Known directory) := inferInstanceAs (Decidable (_ ∧ _))

/-- The pointers that a caller passes are what the calls document. -/
def Call.Valid (s : State) : Call → Prop
  | .create _ _ insertInto _ => s.Known (insertInto.getD obRootObjectDirectory)
  | .find directory _ => s.Known directory
  | .query directory none => s.Known directory
  | .query directory (some previous) => s.Known directory ∧ s.parentDirectory previous = some directory

instance (s : State) : (call : Call) → Decidable (call.Valid s)
  | .create _ _ insertInto _ => inferInstanceAs (Decidable (s.Known (insertInto.getD obRootObjectDirectory)))
  | .find directory _ => inferInstanceAs (Decidable (s.Known directory))
  | .query directory none => inferInstanceAs (Decidable (s.Known directory))
  | .query _ (some _) => inferInstanceAs (Decidable (_ ∧ _))

/-- Callers pass valid pointers. -/
def Promised (s : State) : Action → Prop
  | .call _ call => call.Valid s
  | .step _ => True

instance (s : State) : (a : Action) → Decidable (Promised s a)
  | .call _ call => inferInstanceAs (Decidable (call.Valid s))
  | .step _ => isTrue trivial

/-- The object that a thread has inserted and not yet finished with. -/
def Pc.publishing : Pc → Option Nat
  | .releaseMutex _ (.inserted o) => some o
  | .initializeListHead o => some o
  | .initializeMutex o => some o
  | _ => none

/-- Its creator has inserted the object and is still to initialise it. -/
def State.Publishing (s : State) (o : Nat) : Prop := (s.pc (s.owner o)).publishing = some o

instance (s : State) (o : Nat) : Decidable (s.Publishing o) := inferInstanceAs (Decidable (_ = _))

/-- A walk does not end on a directory that its creator has yet to initialise. -/
def Pc.Settled (s : State) : Pc → Prop
  | .releaseMutex _ (.found o) => s.isDirectory o = true → ¬s.Publishing o
  | _ => True

instance (s : State) : (pc : Pc) → Decidable (pc.Settled s)
  | .releaseMutex _ (.found _) => inferInstanceAs (Decidable (_ → _))
  | .releaseMutex _ (.inserted _) | .releaseMutex _ .nothing => isTrue trivial
  | .idle | .acquireMutex .. | .locked .. | .compare .. | .initializeListHead _ | .initializeMutex _ => isTrue trivial

def Undisturbed (s : State) : Action → Prop
  | .call _ _ => True
  | .step t => (s.pc t).Settled s

instance (s : State) : (a : Action) → Decidable (Undisturbed s a)
  | .call _ _ => isTrue trivial
  | .step t => inferInstanceAs (Decidable ((s.pc t).Settled s))

/-- The object list of the directory is a ring of objects and its lock was initialised. -/
def State.Initialised (s : State) (directory : Nat) : Prop :=
  (∃ os : List Nat, Ring s.links (.objectList directory) (os.map .directoryList)) ∧ s.mutexReady directory = true

end Gr8os.Ob.Publication
