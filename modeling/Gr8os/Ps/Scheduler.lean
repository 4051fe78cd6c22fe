import Gr8os.Ke.ListEntry
import Gr8os.Lib.Run

/-! Threads, the two scheduler lists and the dispatcher objects threads wait for.
Code under the scheduler database lock runs as one step, up to and including what a
resumed thread does before it releases the lock. A section that never gives
the processor back is an error that says where it stopped. -/
namespace Gr8os.Ps

open Intrusive Ke

/-- The list heads and the SchedulerListEntry of every thread. -/
inductive SchedNode
  | psReadyListHead
  | psWaitListHead
  | thread (t : Nat)
deriving DecidableEq, Repr

/-- The WaitListHead of every object and the wait blocks of every thread. -/
inductive WaitNode
  | waitListHead (object : Nat)
  | waitBlock (t i : Nat)
deriving DecidableEq, Repr

inductive ThreadState
  | ready
  | running
  | wait
  | terminated
deriving DecidableEq, Repr

inductive WaitType
  | notWaiting
  | suspended
  | executionDelayed
  | schedulerObjectsAll
  | schedulerObjectsAny
deriving DecidableEq, Repr

/-- Where a kernel stack returns to when its thread is switched in. -/
inductive SwapReturn
  | baseThreadStartup
  | quantumEnd
  | exitThread
  | waitForSingleObject
  | acquireMutex (mutex : Nat)
  | delayThreadExecution
deriving DecidableEq, Repr

structure Thread where
  uniqueId : BitVec 32
  kernelStack : SwapReturn
  state : ThreadState
  justInitialized : Bool
  quantum : BitVec 16
  quantumDynamic : BitVec 16
  waitType : WaitType
  delayedTickCount : BitVec 32
  numberOfObjectsWaiting : Nat
  waitBlockUsed : Option Nat
  exitCode : BitVec 32
  /-- The thread has left the locked section of PsExitThread and not yet swapped. -/
  exiting : Bool
deriving DecidableEq, Repr

inductive ObjectType
  | notificationEvent
  | synchronizationEvent
  | synchronizationMutex
deriving DecidableEq, Repr

structure SchedulerHeader where
  objectType : ObjectType
  signaledState : Bool
deriving DecidableEq, Repr

structure SchedState where
  kiInitializationPhase : Nat
  schedulerLock : Bool
  uniqueThreadIdSeed : BitVec 32
  currentThread : Nat
  quantumLeft : BitVec 16
  thread : Nat → Thread
  threadList : List Nat
  sched : Links SchedNode
  waiters : Links WaitNode
  header : Nat → SchedulerHeader
  /-- Bookkeeping: the threads between a return of ExAcquireMutex and their next ExReleaseMutex. -/
  holders : Nat → List Nat

inductive Halt
  | lockHeld
  | assertion
  | int3
  | noReadyThreads
  | stopExecution
  | returnFromExit
  | badList
  | fuel
deriving DecidableEq, Repr

abbrev Result := Except Halt SchedState

@[simp] theorem ok_bind {α β : Type} (a : α) (f : α → Except Halt β) : (Except.ok a >>= f) = f a := rfl
@[simp] theorem error_bind {α β : Type} (e : Halt) (f : α → Except Halt β) :
    (Except.error e >>= f) = .error e := rfl

def threadNormalQuantum : BitVec 16 := 3

def SchedState.setThread (s : SchedState) (t : Nat) (f : Thread → Thread) : SchedState :=
  { s with thread := fun u => if u = t then f (s.thread u) else s.thread u }

def SchedState.setSignaled (s : SchedState) (object : Nat) (b : Bool) : SchedState :=
  { s with header := fun o => if o = object then { s.header o with signaledState := b } else s.header o }

def SchedState.current (s : SchedState) : Thread := s.thread s.currentThread

def pspLockSchedulerDatabase (s : SchedState) : Result :=
  if s.schedulerLock then .error .lockHeld else .ok { s with schedulerLock := true }

def pspUnlockSchedulerDatabase (s : SchedState) : SchedState := { s with schedulerLock := false }

/-- An assertion stops the machine in a checked build and does nothing else. -/
def assert (checked condition : Bool) (s : SchedState) : Result :=
  if checked && !condition then .error .assertion else .ok s

def pspReadyThread (checked : Bool) (s : SchedState) (t : Nat) : Result := do
  let s ← assert checked ((s.thread t).state ≠ .terminated) s
  let sched := removeEntryList s.sched (.thread t)
  .ok { s with sched := insertTailList sched .psReadyListHead (.thread t) }

/-- Take the first `n` wait blocks of a thread off the lists of the objects it waits for. -/
def removeWaitBlocks (w : Links WaitNode) (t : Nat) : Nat → Links WaitNode
  | 0 => w
  | n + 1 => removeEntryList (removeWaitBlocks w t n) (.waitBlock t n)

def pspUnwaitThread (checked : Bool) (s : SchedState) (t : Nat) (quantumIncrement : BitVec 16) : Result := do
  let s ← assert checked ((s.thread t).state ≠ .terminated) s
  if (s.thread t).waitType = .schedulerObjectsAny then
    let sched := removeEntryList s.sched (.thread t)
    let s := { s with
      sched := insertHeadList sched .psReadyListHead (.thread t)
      waiters := removeWaitBlocks s.waiters t (s.thread t).numberOfObjectsWaiting }
    .ok (s.setThread t fun r => { r with
      state := .ready
      quantumDynamic := quantumIncrement
      waitBlockUsed := none
      waitType := .notWaiting
      numberOfObjectsWaiting := 0 })
  else .ok s

def processWaitListFrom (checked : Bool) : Nat → SchedNode → SchedState → Result
  | 0, _, _ => .error .fuel
  | _ + 1, .psWaitListHead, s => .ok s
  | _ + 1, .psReadyListHead, _ => .error .badList
  | fuel + 1, .thread t, s =>
    if (s.thread t).waitType = .executionDelayed then
      let s := s.setThread t fun r => { r with delayedTickCount := r.delayedTickCount - 1 }
      if (s.thread t).delayedTickCount = 0 then do
        let next := s.sched.flink (.thread t)
        let s ← pspUnwaitThread checked s t 0
        processWaitListFrom checked fuel next s
      else processWaitListFrom checked fuel (s.sched.flink (.thread t)) s
    else processWaitListFrom checked fuel (s.sched.flink (.thread t)) s

def listFuel (s : SchedState) : Nat := s.threadList.length + 1

def pspProcessWaitList (checked : Bool) (s : SchedState) : Result :=
  processWaitListFrom checked (listFuel s) (s.sched.flink .psWaitListHead) s

def findReadyThreadFrom (checked : Bool) (s : SchedState) : Nat → SchedNode → Except Halt Nat
  | 0, _ => .error .fuel
  | _ + 1, .psReadyListHead =>
    if s.current.state ≠ .ready then
      if isListEmpty s.sched .psReadyListHead ∧ s.current.state = .terminated then .error .stopExecution
      else .error .noReadyThreads
    else .ok s.currentThread
  | _ + 1, .psWaitListHead => .error .badList
  | fuel + 1, .thread t =>
    if checked ∧ (s.thread t).state ≠ .ready then .error .assertion
    else if t ≠ s.currentThread then .ok t
    else findReadyThreadFrom checked s fuel (s.sched.flink (.thread t))

def findReadyThread (checked : Bool) (s : SchedState) : Except Halt Nat :=
  findReadyThreadFrom checked s (listFuel s) (s.sched.flink .psReadyListHead)

/-- The processor control block runs a thread for its quantum. -/
def SchedState.setPcb (s : SchedState) (t : Nat) : SchedState :=
  { s with
    currentThread := t
    quantumLeft := (s.thread t).quantum + (s.thread t).quantumDynamic }

/-- The registers and the PCB after the switch; a new thread releases the lock at once. -/
def swapContext (s : SchedState) (return_ : SwapReturn) (next : Nat) : SchedState :=
  let s := s.setThread s.currentThread fun r => { r with kernelStack := return_ }
  let s := s.setPcb next
  let s := s.setThread next fun r => { r with state := .running, quantumDynamic := 0 }
  if (s.thread next).justInitialized then
    pspUnlockSchedulerDatabase (s.setThread next fun r => { r with justInitialized := false })
  else s

/-- What the thread on the new stack does before it gives up the lock. -/
def resume (s : SchedState) : Result :=
  match s.current.kernelStack with
  | .baseThreadStartup => .ok s
  | .quantumEnd | .waitForSingleObject | .delayThreadExecution => .ok (pspUnlockSchedulerDatabase s)
  | .exitThread => .error .returnFromExit
  | .acquireMutex m =>
    let s := pspUnlockSchedulerDatabase (s.setSignaled m false)
    .ok { s with holders := fun o => if o = m then s.currentThread :: s.holders o else s.holders o }

/-- If the current thread is really still ready, move it to the end of the list. -/
def requeueCurrent (checked : Bool) (s : SchedState) : Result :=
  if s.current.state = .ready then pspReadyThread checked s s.currentThread else .ok s

def pspSwapThread (checked : Bool) (s : SchedState) (return_ : SwapReturn) : Result := do
  let s ← requeueCurrent checked s
  let s ← pspProcessWaitList checked s
  let next ← findReadyThread checked s
  resume (swapContext s return_ next)

def psSwapThread (checked : Bool) (s : SchedState) (return_ : SwapReturn) : Result := do
  let s ← pspLockSchedulerDatabase s
  pspSwapThread checked s return_

def psQuantumEnd (checked : Bool) (s : SchedState) : Result :=
  let s := s.setThread s.currentThread fun r => { r with state := .ready }
  psSwapThread checked s .quantumEnd

/-- The locked section of PsExitThread. -/
def psExitThread (s : SchedState) (code : BitVec 32) : Result := do
  let s ← pspLockSchedulerDatabase s
  let t := s.currentThread
  let s := { s with sched := removeEntryList s.sched (.thread t) }
  let s := s.setThread t fun r => { r with exitCode := code, state := .terminated, exiting := true }
  .ok (pspUnlockSchedulerDatabase s)

/-- The call of PsSwapThread that follows it. -/
def psExitThreadSwap (checked : Bool) (s : SchedState) : Result := psSwapThread checked s .exitThread

/-- The lock is not released. -/
def psTerminateThread (s : SchedState) (t : Nat) (code : BitVec 32) : Result := do
  let s ← pspLockSchedulerDatabase s
  let s := { s with sched := removeEntryList s.sched (.thread t) }
  .ok (s.setThread t fun r => { r with exitCode := code, state := .terminated })

def pspCreateThread (s : SchedState) (t : Nat) : Result := do
  let s ← pspLockSchedulerDatabase s
  let seed := s.uniqueThreadIdSeed + 1
  let s := s.setThread t fun _ => {
    uniqueId := seed
    kernelStack := .baseThreadStartup
    state := .ready
    justInitialized := true
    quantum := threadNormalQuantum
    quantumDynamic := 0
    waitType := .notWaiting
    delayedTickCount := 0
    numberOfObjectsWaiting := 0
    waitBlockUsed := none
    exitCode := 0
    exiting := false }
  .ok (pspUnlockSchedulerDatabase { s with
    uniqueThreadIdSeed := seed
    sched := insertHeadList s.sched .psReadyListHead (.thread t)
    threadList := s.threadList ++ [t] })

/-- Queue the current thread on an object and on the wait list. -/
def blockOn (s : SchedState) (object : Nat) : SchedState :=
  let t := s.currentThread
  let s := { s with waiters := insertTailList s.waiters (.waitListHead object) (.waitBlock t 0) }
  let s := s.setThread t fun r => { r with
    waitBlockUsed := some 0
    state := .wait
    waitType := .schedulerObjectsAny
    numberOfObjectsWaiting := 1 }
  { s with sched := insertTailList (removeEntryList s.sched (.thread t)) .psWaitListHead (.thread t) }

def keWaitForSingleObject (checked : Bool) (s : SchedState) (object : Nat) : Result := do
  let s ← pspLockSchedulerDatabase s
  if (s.header object).signaledState then .ok (pspUnlockSchedulerDatabase s)
  else pspSwapThread checked (blockOn s object) .waitForSingleObject

def exAcquireMutex (checked : Bool) (s : SchedState) (mutex : Nat) : Result :=
  let acquired := fun s : SchedState =>
    { s with holders := fun o => if o = mutex then s.currentThread :: s.holders o else s.holders o }
  if s.kiInitializationPhase = 0 then .ok (acquired s)
  else do
    let s ← pspLockSchedulerDatabase s
    if (s.header mutex).signaledState then
      .ok (acquired (pspUnlockSchedulerDatabase (s.setSignaled mutex false)))
    else pspSwapThread checked (blockOn s mutex) (.acquireMutex mutex)

/-- Put the current thread to sleep on the wait list. -/
def delayCurrent (s : SchedState) (clockTickCount : BitVec 32) : SchedState :=
  let t := s.currentThread
  let s := s.setThread t fun r => { r with
    state := .wait
    waitType := .executionDelayed
    delayedTickCount := clockTickCount }
  { s with sched := insertTailList (removeEntryList s.sched (.thread t)) .psWaitListHead (.thread t) }

def psDelayThreadExecution (checked : Bool) (s : SchedState) (clockTickCount : BitVec 32) : Result := do
  let s ← pspLockSchedulerDatabase s
  pspSwapThread checked (delayCurrent s clockTickCount) .delayThreadExecution

def kiSetEventFrom (checked : Bool) (event : Nat) (quantumIncrement : BitVec 16) :
    Nat → WaitNode → SchedState → Result
  | 0, _, _ => .error .fuel
  | _ + 1, .waitListHead _, _ => .error .badList
  | fuel + 1, .waitBlock t i, s =>
    if (s.thread t).state ≠ .wait then .error .int3
    else
      let satisfied := ((s.thread t).numberOfObjectsWaiting > 1 ∧
        (s.thread t).waitType = .schedulerObjectsAny) ∨ (s.thread t).numberOfObjectsWaiting = 1
      if satisfied then do
        let s ← pspUnwaitThread checked s t quantumIncrement
        if (s.header event).objectType = .synchronizationEvent then .ok s
        else if s.waiters.flink (.waitBlock t i) = .waitListHead event then .ok s
        else kiSetEventFrom checked event quantumIncrement fuel (s.waiters.flink (.waitBlock t i)) s
      else if s.waiters.flink (.waitBlock t i) = .waitListHead event then .ok s
      else kiSetEventFrom checked event quantumIncrement fuel (s.waiters.flink (.waitBlock t i)) s

/-- The do loop, entered only if somebody waits. -/
def satisfyWaiters (checked : Bool) (s : SchedState) (event : Nat) (quantumIncrement : BitVec 16) : Result :=
  if !isListEmpty s.waiters (.waitListHead event) then
    kiSetEventFrom checked event quantumIncrement (listFuel s) (s.waiters.flink (.waitListHead event)) s
  else .ok s

def kiSetEvent (checked : Bool) (s : SchedState) (event : Nat) (quantumIncrement : BitVec 16) :
    Except Halt (Bool × SchedState) := do
  let oldSignaledState := (s.header event).signaledState
  let s ← satisfyWaiters checked (s.setSignaled event true) event quantumIncrement
  .ok (oldSignaledState, s)

def keSetEvent (checked : Bool) (s : SchedState) (event : Nat) (quantumIncrement : BitVec 16) :
    Except Halt (Bool × SchedState) := do
  let s ← pspLockSchedulerDatabase s
  let (oldSignaledState, s) ← kiSetEvent checked s event quantumIncrement
  .ok (oldSignaledState, pspUnlockSchedulerDatabase s)

def exReleaseMutex (checked : Bool) (s : SchedState) (mutex : Nat) : Result := do
  let s := { s with holders := fun o =>
    if o = mutex then (s.holders o).erase s.currentThread else s.holders o }
  if s.kiInitializationPhase = 0 then .ok s
  else
    let (_, s) ← keSetEvent checked s mutex 0
    .ok s

/-- One operation of the thread that runs, or an interrupt: a quantum end or an event set by a handler. -/
inductive SchedOp
  | create (t : Nat)
  | wait (object : Nat)
  | setEvent (event : Nat) (quantumIncrement : BitVec 16)
  | delay (clockTickCount : BitVec 32)
  | exit (code : BitVec 32)
  | exitSwap
  | terminate (t : Nat) (code : BitVec 32)
  | quantumEnd
  | acquire (mutex : Nat)
  | release (mutex : Nat)
deriving DecidableEq, Repr

/-- Inside the tail of PsExitThread a thread can only swap; elsewhere it cannot swap that way.
New threads use new memory, another thread is terminated once, and a mutex is released by a holder. -/
def Enabled (s : SchedState) : SchedOp → Prop
  | .create t => s.current.exiting = false ∧ t ∉ s.threadList
  | .wait _ | .delay _ | .exit _ | .acquire _ => s.current.exiting = false
  | .setEvent _ _ | .quantumEnd => True
  | .exitSwap => s.current.exiting = true
  | .terminate t _ => s.current.exiting = false ∧ t ∈ s.threadList ∧ t ≠ s.currentThread ∧
      (s.thread t).state ≠ .terminated
  | .release m => s.current.exiting = false ∧ s.currentThread ∈ s.holders m

instance (s : SchedState) (op : SchedOp) : Decidable (Enabled s op) := by
  cases op <;> unfold Enabled <;> infer_instance

def perform (checked : Bool) (s : SchedState) : SchedOp → Result
  | .create t => pspCreateThread s t
  | .wait o => keWaitForSingleObject checked s o
  | .setEvent o inc => (keSetEvent checked s o inc).map Prod.snd
  | .delay n => psDelayThreadExecution checked s n
  | .exit code => psExitThread s code
  | .exitSwap => psExitThreadSwap checked s
  | .terminate t code => psTerminateThread s t code
  | .quantumEnd => psQuantumEnd checked s
  | .acquire m => exAcquireMutex checked s m
  | .release m => exReleaseMutex checked s m

/-- No step follows a section that never gives the processor back. -/
def schedStep (checked : Bool) (s : SchedState) (op : SchedOp) : Option SchedState :=
  if Enabled s op then (perform checked s op).toOption else none

/-- The operations that go through PspSwapThread. -/
def Switches (s : SchedState) : SchedOp → Prop
  | .quantumEnd | .exitSwap | .delay _ => True
  | .wait o => (s.header o).signaledState = false
  | .acquire m => s.kiInitializationPhase ≠ 0 ∧ (s.header m).signaledState = false
  | _ => False

end Gr8os.Ps
