import Mathlib.Logic.Function.Basic
import Gr8os.Ke.ListEntry
import Gr8os.Lib.Run
import Gr8os.Ob.References

/-! Callback objects: their creation and deletion, the lists that loaded extenders put them in, and the dispatch. -/
namespace Gr8os.Ex.Callbacks

open Ke Intrusive Ob

inductive CallbackList
  | psCreateThread
  | psTerminateThread
  | psCreateProcess
  | psTerminateProcess
  | keBugcheckDispatcher
deriving DecidableEq, Repr

/-- The head of a list or the InternalListEntry of a callback. -/
inductive Entry
  | head (list : CallbackList)
  | callback (c : Nat)
deriving DecidableEq, Repr

structure Extender where
  createThread : Option Nat := none
  terminateThread : Option Nat := none
  createProcess : Option Nat := none
  terminateProcess : Option Nat := none
  bugcheckDispatcher : Option Nat := none
deriving DecidableEq, Repr

/-- The insertions that follow a successful entry routine, in their order. -/
def Extender.insertions (e : Extender) : List (CallbackList × Nat) :=
  [(.psCreateThread, e.createThread), (.psTerminateThread, e.terminateThread), (.psCreateProcess, e.createProcess),
    (.psTerminateProcess, e.terminateProcess), (.keBugcheckDispatcher, e.bugcheckDispatcher)].filterMap
    fun p => p.2.map fun c => (p.1, c)

def exCallbackObjectType : ObjectType := .other 0

def mmExtenderObjectType : ObjectType := .other 1

/-- Where the walk of a dispatch is: before the loop's test, or inside a callback. -/
inductive Walk
  | compare (callback : Entry)
  | inside (c : Nat)
deriving DecidableEq, Repr

/-- What loaded extenders have made of a callback. -/
inductive Place
  | free
  | waiting (loader : Nat)
  | listed (list : CallbackList)
deriving DecidableEq, Repr

/-- `loading` holds the insertions that a loader has still to make, and `dispatch` the walk that has a list's lock.
`called` is what the walk has called so far, and `place` follows the callbacks that extenders name. -/
structure CallbackState where
  objects : ObjectManager
  inserted : Nat → Bool
  links : Links Entry
  loading : Nat → List (CallbackList × Nat)
  dispatch : CallbackList → Option Walk
  called : CallbackList → List Nat
  place : Nat → Place

def exCreateCallback (allocated : Bool) (s : CallbackState) : CallbackState :=
  match obCreateObject allocated s.objects exCallbackObjectType [] with
  | (_, none, _) => s
  | (_, some c, objects) =>
    { s with
      objects := objects
      links := initializeListHead s.links (.callback c)
      inserted := Function.update s.inserted c false }

/-- The DeleteRoutine of the type. -/
def expDeleteCallback (s : CallbackState) (c : Nat) : CallbackState :=
  if s.inserted c then { s with links := removeEntryList s.links (.callback c) } else s

/-- The DeleteRoutine runs in the deletion that frees the object. -/
def exDeleteCallback (checked : Bool) (s : CallbackState) (o : Nat) : Option (Status × CallbackState) :=
  if (s.objects.header o).objectType ≠ exCallbackObjectType then some (.invalidParameter, s)
  else (obpDeleteObject checked 1 s.objects o).map fun (status, objects) =>
    (status, if objects.freed o then expDeleteCallback { s with objects := objects } o else { s with objects := objects })

/-- Up to the insertions. What the entry routine did to callbacks are calls of their own before this one. -/
def miCreateExtenderObject (checked allocated : Bool) (entry : Status) (s : CallbackState) (loader : Nat) (e : Extender) :
    Option CallbackState :=
  match obCreateObject allocated s.objects mmExtenderObjectType [] with
  | (_, none, _) => some s
  | (_, some extender, objects) =>
    if !entry.isSuccess then
      (obpDeleteObject checked 1 objects extender).map fun (_, objects) => { s with objects := objects }
    else some { s with
      objects := objects
      loading := Function.update s.loading loader e.insertions
      place := fun c => if c ∈ e.insertions.map (·.2) then .waiting loader else s.place c }

/-- InterlockedInsertHeadList: the list's lock is free. -/
def insertNext (s : CallbackState) (loader : Nat) : Option CallbackState :=
  match s.loading loader with
  | [] => none
  | (list, c) :: rest =>
    if s.dispatch list = none then
      some { s with
        links := insertHeadList s.links (.head list) (.callback c)
        loading := Function.update s.loading loader rest
        place := Function.update s.place c (.listed list) }
    else none

/-- ExProcessCallbackList takes the lock and begins at the first entry. -/
def exProcessCallbackList (s : CallbackState) (list : CallbackList) : Option CallbackState :=
  if s.dispatch list = none then
    some { s with
      dispatch := Function.update s.dispatch list (some (.compare (s.links.flink (.head list))))
      called := Function.update s.called list [] }
  else none

/-- The loop of ExpProcessCallbackList. The head of another list is no callback. -/
def processNext (s : CallbackState) (list : CallbackList) : Option CallbackState :=
  match s.dispatch list with
  | none => none
  | some (.compare (.head head)) =>
    if head = list then some { s with dispatch := Function.update s.dispatch list none } else none
  | some (.compare (.callback c)) =>
    some { s with
      dispatch := Function.update s.dispatch list (some (.inside c))
      called := Function.update s.called list (s.called list ++ [c]) }
  | some (.inside c) =>
    some { s with dispatch := Function.update s.dispatch list (some (.compare (s.links.flink (.callback c)))) }

/-- A call, or the next part of one, on any thread and so inside a callback too. -/
inductive Action
  | create (allocated : Bool)
  | delete (o : Nat)
  | load (allocated : Bool) (entry : Status) (loader : Nat) (e : Extender)
  | insert (loader : Nat)
  | process (list : CallbackList)
  | walk (list : CallbackList)
deriving DecidableEq, Repr

def next (checked : Bool) (s : CallbackState) : Action → Option CallbackState
  | .create allocated => some (exCreateCallback allocated s)
  | .delete o => (exDeleteCallback checked s o).map (·.2)
  | .load allocated entry loader e => miCreateExtenderObject checked allocated entry s loader e
  | .insert loader => insertNext s loader
  | .process list => exProcessCallbackList s list
  | .walk list => processNext s list

/-- The lists are initialised; objects are numbered from the first one made afterwards. -/
def start : CallbackState where
  objects := ⟨⟨fun _ => ⟨[], 0, .other 2, none, 0, 0, []⟩, 0⟩, 0, fun _ => false, [], fun _ => false⟩
  inserted _ := false
  links := ⟨id, id⟩
  loading _ := []
  dispatch _ := none
  called _ := []
  place _ := .free

/-- The object exists. -/
def CallbackState.Live (s : CallbackState) (o : Nat) : Prop := o < s.objects.created ∧ s.objects.freed o = false

instance (s : CallbackState) (o : Nat) : Decidable (s.Live o) := inferInstanceAs (Decidable (_ ∧ _))

/-- Objects that callers pass exist, and an extender names callbacks that are in no list, each once. -/
def Promised (s : CallbackState) : Action → Prop
  | .delete o => s.Live o
  | .load _ _ loader e => s.loading loader = [] ∧ (e.insertions.map (·.2)).Nodup ∧
      ∀ c ∈ e.insertions.map (·.2),
        s.Live c ∧ (s.objects.header c).objectType = exCallbackObjectType ∧ s.place c = .free
  | _ => True

instance (s : CallbackState) : (a : Action) → Decidable (Promised s a)
  | .delete o => inferInstanceAs (Decidable (s.Live o))
  | .load .. => inferInstanceAs (Decidable (_ ∧ _))
  | .create _ | .insert _ | .process _ | .walk _ => isTrue trivial

/-- No callback is deleted that a loaded extender has put, or is about to put, into a list. -/
def Unlisted (s : CallbackState) : Action → Prop
  | .delete o => s.place o = .free
  | _ => True

instance (s : CallbackState) : (a : Action) → Decidable (Unlisted s a)
  | .delete o => inferInstanceAs (Decidable (s.place o = .free))
  | .load .. | .create _ | .insert _ | .process _ | .walk _ => isTrue trivial

/-- The callbacks that a list holds in memory, in order. -/
def CallbackState.Holds (s : CallbackState) (list : CallbackList) (cs : List Nat) : Prop :=
  Ring s.links (.head list) (cs.map .callback)

/-- No list holds a deleted callback. -/
def CallbackState.Sound (s : CallbackState) : Prop :=
  ∀ list, ∃ cs, s.Holds list cs ∧ ∀ c ∈ cs, s.objects.freed c = false

end Gr8os.Ex.Callbacks
