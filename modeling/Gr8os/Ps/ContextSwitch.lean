import Gr8os.Ps.Scheduler
import Gr8os.Ps.SchedulerLists

/-! The processor under the scheduler: its registers, the stacks and the PCB, and what the timer interrupt, SwapContext
and the calls that give up the processor do with them, and what stays while no context is switched. A stack is what has been
pushed, the last word first. -/
namespace Gr8os.Ps

structure Registers where
  eax : BitVec 32
  ecx : BitVec 32
  edx : BitVec 32
  ebx : BitVec 32
  ebp : BitVec 32
  esi : BitVec 32
  edi : BitVec 32
  ds : BitVec 16
  es : BitVec 16
  gs : BitVec 16
  fs : BitVec 16
deriving DecidableEq, Repr

/-- Where the processor goes on: in a thread's own code, or in the kernel behind a call. -/
inductive Place
  | own (eip : BitVec 32)
  | baseThreadStartup
  | afterStartRoutine
  | afterSwapContext
  | afterPspSwapThread
  | afterPsSwapThread
  | afterPsQuantumEnd
  | afterDispatcher
  | afterWait (call : SwapReturn)
  | exitTail
  | afterExitSwap
deriving DecidableEq, Repr

/-- A word on a stack. Nothing reads the ESP that pushad pushes, nor what call $+5 does. -/
inductive Cell
  | word (value : BitVec 32)
  | place (p : Place)
  | unread
deriving DecidableEq, Repr

/-- What a THREAD keeps while others run. -/
structure Saved where
  kernelStack : List Cell
  exceptionList : BitVec 32
  currentException : BitVec 32
  owningProcess : Nat
deriving DecidableEq, Repr

/-- The part of the processor's state that a thread in its own code works with. -/
structure Context where
  registers : Registers
  eflags : BitVec 32
  eip : BitVec 32
  stack : List Cell
  exceptionList : BitVec 32
  currentException : BitVec 32
deriving DecidableEq, Repr

structure Machine where
  sched : SchedState
  registers : Registers
  eflags : BitVec 32
  place : Place
  stack : List Cell
  cr3 : BitVec 32
  exceptionList : BitVec 32
  currentException : BitVec 32
  /-- The OldIrqState of SchedulerLock. -/
  oldIrqState : Bool
  saved : Nat → Saved
  directoryTableBase : Nat → BitVec 32

def kgdtR0Code : BitVec 32 := 0x08

def interruptBit : BitVec 32 := 1#32 <<< 9

def interruptFlag (eflags : BitVec 32) : Bool := eflags.getLsbD 9

def cli (eflags : BitVec 32) : BitVec 32 := eflags &&& ~~~interruptBit

def sti (eflags : BitVec 32) : BitVec 32 := eflags ||| interruptBit

def Registers.pushad (r : Registers) (stack : List Cell) : List Cell :=
  .word r.edi :: .word r.esi :: .word r.ebp :: .unread :: .word r.ebx :: .word r.edx :: .word r.ecx :: .word r.eax :: stack

def Registers.pushSegments (r : Registers) (stack : List Cell) : List Cell :=
  .word (r.ds.setWidth 32) :: .word (r.es.setWidth 32) :: .word (r.gs.setWidth 32) :: .word (r.fs.setWidth 32) :: stack

def kiMakeContextFrame (r : Registers) (stack : List Cell) : List Cell := r.pushad (r.pushSegments stack)

def kiRestoreContextFrame : List Cell → Option (Registers × List Cell)
  | .word edi :: .word esi :: .word ebp :: _ :: .word ebx :: .word edx :: .word ecx :: .word eax ::
      .word ds :: .word es :: .word gs :: .word fs :: stack =>
    some ({ eax, ecx, edx, ebx, ebp, esi, edi, ds := ds.setWidth 16, es := es.setWidth 16, gs := gs.setWidth 16,
            fs := fs.setWidth 16 }, stack)
  | _ => none

/-- The fictive trap frame of a thread that gives up the processor itself. -/
def waitFrame (r : Registers) (eflags : BitVec 32) (stack : List Cell) : List Cell :=
  .word 0 :: .word 0 :: .word 0 :: .word 0 :: .word 0 :: .word 0 :: .word r.ebx :: .unread :: .word r.ebp :: .word r.esi ::
    .word r.edi :: r.pushSegments (.unread :: .word kgdtR0Code :: .word eflags :: stack)

/-- What the thread pops of it when it runs again: EBX, EBP, ESI and EDI. -/
def popWaitFrame : List Cell → Option (BitVec 32 × BitVec 32 × BitVec 32 × BitVec 32 × List Cell)
  | _ :: _ :: _ :: _ :: _ :: _ :: .word ebx :: _ :: .word ebp :: .word esi :: .word edi ::
      _ :: _ :: _ :: _ :: _ :: _ :: _ :: stack => some (ebx, ebp, esi, edi, stack)
  | _ => none

section switching

variable (checked : Bool) (scratch : Registers) (m : Machine)

def Machine.push (c : Cell) : Machine := { m with stack := c :: m.stack }

def Machine.retn : Option Machine :=
  match m.stack with
  | .place q :: stack => some { m with place := q, stack }
  | _ => none

/-- PspLockSchedulerDatabase; the lock keeps the interrupt flag, and nothing interrupts the holder. -/
def Machine.lock : Option Machine := do
  let sched ← (pspLockSchedulerDatabase m.sched).toOption
  return { m with sched, oldIrqState := interruptFlag m.eflags, eflags := cli m.eflags }

/-- KeReleaseLock turns interrupts on where they were on, and off nowhere. -/
def Machine.unlock : Machine :=
  { m with
    sched := pspUnlockSchedulerDatabase m.sched
    eflags := if m.oldIrqState then sti m.eflags else m.eflags }

def Machine.keReleaseIrqState (oldIrqState : Bool) : Machine :=
  { m with eflags := if oldIrqState then sti m.eflags else cli m.eflags }

def Machine.save (t : Nat) (f : Saved → Saved) : Machine :=
  { m with saved := fun u => if u = t then f (m.saved u) else m.saved u }

/-- The stacks, the exception lists and the address space are swapped; a new thread is not preempted while it starts. -/
def Machine.swapContext (call : SwapReturn) (next : Nat) : Machine :=
  let current := m.sched.currentThread
  let m := m.save current fun s => { s with
    kernelStack := m.stack
    exceptionList := m.exceptionList
    currentException := m.currentException }
  let fresh := (m.sched.thread next).justInitialized
  let m := { m with
    sched := Ps.swapContext m.sched call next
    registers := scratch
    stack := (m.saved next).kernelStack
    exceptionList := (m.saved next).exceptionList
    currentException := (m.saved next).currentException
    cr3 := if (m.saved current).owningProcess = (m.saved next).owningProcess then m.cr3
      else m.directoryTableBase (m.saved next).owningProcess }
  if fresh then { m with eflags := sti m.eflags } else m

def Machine.pspSwapThread (call : SwapReturn) : Option Machine := do
  let sched ← (requeueCurrent checked m.sched).toOption
  let sched ← (pspProcessWaitList checked sched).toOption
  let next ← (findReadyThread checked sched).toOption
  (Machine.swapContext scratch ({ m with sched }.push (.place .afterSwapContext)) call next).retn

def Machine.psSwapThread (call : SwapReturn) : Option Machine := do
  let m ← m.lock
  Machine.pspSwapThread checked scratch (m.push (.place .afterPspSwapThread)) call

def Machine.psQuantumEnd : Option Machine :=
  let sched := m.sched.setThread m.sched.currentThread fun r => { r with state := .ready }
  Machine.psSwapThread checked scratch ({ m with sched }.push (.place .afterPsSwapThread)) .quantumEnd

def Machine.pspSchedulerTimerInterruptDispatcher : Option Machine :=
  let quantumLeft := m.sched.quantumLeft - 1
  let m := { m with sched := { m.sched with quantumLeft } }
  if quantumLeft ≠ 0 then m.retn
  else Machine.psQuantumEnd checked scratch (m.push (.place .afterPsQuantumEnd))

/-- The gate of the interrupt pushes the flags and the place and turns interrupts off. -/
def Machine.irq0Handler : Option Machine :=
  let frame := kiMakeContextFrame m.registers (.place m.place :: .word kgdtR0Code :: .word m.eflags :: m.stack)
  let m := { m with stack := frame, eflags := cli m.eflags, registers := scratch }
  Machine.pspSchedulerTimerInterruptDispatcher checked scratch (m.push (.place .afterDispatcher))

/-- KiRestoreContextFrame and iretd. -/
def Machine.endOfInterrupt : Option Machine :=
  match kiRestoreContextFrame m.stack with
  | some (registers, .place place :: _ :: .word eflags :: stack) => some { m with registers, eflags, place, stack }
  | _ => none

/-- PsDelayThreadExecution, KeWaitForSingleObject and ExAcquireMutex where the thread has to wait. -/
def Machine.startWait (call : SwapReturn) (sleep : SchedState → SchedState) : Option Machine := do
  let r := m.registers
  let old := interruptFlag m.eflags
  let m ← m.lock
  let m := (m.push (.place m.place)).push (.word (if old then 1 else 0))
  let m := { m with sched := sleep m.sched, stack := waitFrame r m.eflags m.stack }
  Machine.pspSwapThread checked scratch (m.push (.place (.afterWait call))) call

/-- The mutex of a thread that waited for one is not signalled any more. -/
def takeMutex (s : SchedState) : SwapReturn → SchedState
  | .acquireMutex m =>
    { s.setSignaled m false with
      holders := fun o => if o = m then s.currentThread :: s.holders o else s.holders o }
  | _ => s

def Machine.finishWait (call : SwapReturn) : Option Machine :=
  match popWaitFrame m.stack with
  | some (ebx, ebp, esi, edi, .word old :: stack) =>
    let m := { m with registers := { m.registers with ebx, ebp, esi, edi }, stack, sched := takeMutex m.sched call }
    (Machine.keReleaseIrqState m.unlock (old ≠ 0)).retn
  | _ => none

/-- PsExitThread up to the swap; the thread does not come back from that. -/
def Machine.psExitThread (code : BitVec 32) : Option Machine := do
  let sched ← (Ps.psExitThread m.sched code).toOption
  return { m with sched, place := .exitTail }

/-- The kernel's own code behind a call. -/
def Machine.goOn : Option Machine :=
  match m.place with
  | .own _ => none
  | .baseThreadStartup =>
    match m.stack with
    | .word routine :: stack =>
      some { m with
        registers := { m.registers with eax := routine }
        place := .own routine
        stack := .place .afterStartRoutine :: stack }
    | _ => none
  | .afterStartRoutine => m.psExitThread 0
  | .afterSwapContext | .afterPsSwapThread | .afterPsQuantumEnd => m.retn
  | .afterPspSwapThread => m.unlock.retn
  | .afterDispatcher => m.endOfInterrupt
  | .afterWait call => m.finishWait call
  | .exitTail => Machine.psSwapThread checked scratch (m.push (.place .afterExitSwap)) .exitThread
  | .afterExitSwap => none

end switching

/-- What happens next: a step of the thread that runs, the timer's interrupt, or the kernel's way back from a call. -/
inductive Event
  | own (t : Nat) (f : Context → Context)
  | call (t : Nat) (op : SchedOp) (scratch : Registers)
  | create (t u : Nat) (startRoutine startContext : BitVec 32) (owningProcess : Nat) (scratch : Registers)
  | startRoutineReturns (t : Nat)
  | timer (scratch : Registers)
  | goOn (scratch : Registers)

def Machine.context (m : Machine) (eip : BitVec 32) : Context :=
  { registers := m.registers, eflags := m.eflags, eip, stack := m.stack, exceptionList := m.exceptionList
    currentException := m.currentException }

def Machine.setContext (m : Machine) (c : Context) : Machine :=
  { m with
    registers := c.registers
    eflags := c.eflags
    place := .own c.eip
    stack := c.stack
    exceptionList := c.exceptionList
    currentException := c.currentException }

/-- EAX, ECX and EDX do not survive a call. -/
def Registers.afterCall (r scratch : Registers) : Registers :=
  { r with eax := scratch.eax, ecx := scratch.ecx, edx := scratch.edx }

section steps

variable (checked : Bool) (m : Machine)

/-- A call into the scheduler that gives the processor back at once. -/
def Machine.callBack (op : SchedOp) (scratch : Registers) : Option Machine := do
  let sched ← (perform checked m.sched op).toOption
  return { m with sched, registers := m.registers.afterCall scratch }

def Machine.call (op : SchedOp) (scratch : Registers) : Option Machine :=
  match op with
  | .delay n => Machine.startWait checked scratch m .delayThreadExecution fun s => delayCurrent s n
  | .wait o =>
    if (m.sched.header o).signaledState then m.callBack checked op scratch
    else Machine.startWait checked scratch m .waitForSingleObject fun s => blockOn s o
  | .acquire x =>
    if m.sched.kiInitializationPhase = 0 ∨ (m.sched.header x).signaledState then m.callBack checked op scratch
    else Machine.startWait checked scratch m (.acquireMutex x) fun s => blockOn s x
  | .exit code => m.psExitThread code
  | .setEvent _ _ | .terminate _ _ | .release _ => m.callBack checked op scratch
  | .create _ | .exitSwap | .quantumEnd => none

/-- The stack of a new thread leads to its start routine. -/
def Machine.pspCreateThread (u : Nat) (startRoutine startContext : BitVec 32) (owningProcess : Nat) (scratch : Registers) :
    Option Machine := do
  let m ← m.callBack checked (.create u) scratch
  return m.save u fun _ => {
    kernelStack := [.place .baseThreadStartup, .word startRoutine, .word startContext]
    exceptionList := 0
    currentException := 0
    owningProcess }

/-- The events that can happen: those of a thread while it runs its own code, the timer's while interrupts are on. -/
def machineStep : Event → Option Machine
  | .own t f =>
    match m.place with
    | .own eip => if t = m.sched.currentThread then some (m.setContext (f (m.context eip))) else none
    | _ => none
  | .call t op scratch =>
    match m.place with
    | .own _ => if t = m.sched.currentThread ∧ Enabled m.sched op then m.call checked op scratch else none
    | _ => none
  | .create t u startRoutine startContext owningProcess scratch =>
    match m.place with
    | .own _ =>
      if t = m.sched.currentThread ∧ u ≠ t ∧ Enabled m.sched (.create u) then
        m.pspCreateThread checked u startRoutine startContext owningProcess scratch
      else none
    | _ => none
  | .startRoutineReturns t =>
    match m.place, m.stack with
    | .own _, .place .afterStartRoutine :: _ => if t = m.sched.currentThread then m.retn else none
    | _, _ => none
  | .timer scratch => if interruptFlag m.eflags then Machine.irq0Handler checked scratch m else none
  | .goOn scratch => Machine.goOn checked scratch m

end steps

open Intrusive Ke

/-- The same thread runs, the lock is as it was, every kernel stack leads where it led, and no thread starts to exit. -/
structure Stays (s u : SchedState) : Prop where
  current : u.currentThread = s.currentThread
  lock : u.schedulerLock = s.schedulerLock
  kernelStacks : ∀ t, (u.thread t).kernelStack = (s.thread t).kernelStack
  fresh : ∀ t, (u.thread t).justInitialized = (s.thread t).justInitialized
  exiting : ∀ t, (u.thread t).exiting = (s.thread t).exiting

section frames

variable {checked : Bool} {s u v : SchedState} {t fuel : Nat} {inc : BitVec 16}

theorem Stays.refl (s : SchedState) : Stays s s := ⟨rfl, rfl, fun _ => rfl, fun _ => rfl, fun _ => rfl⟩

theorem Stays.trans (first : Stays s u) (second : Stays u v) : Stays s v :=
  ⟨second.current.trans first.current, second.lock.trans first.lock,
    fun t => (second.kernelStacks t).trans (first.kernelStacks t), fun t => (second.fresh t).trans (first.fresh t),
    fun t => (second.exiting t).trans (first.exiting t)⟩

theorem stays_setThread {f : Thread → Thread} (stack : ∀ r, (f r).kernelStack = r.kernelStack)
    (fresh : ∀ r, (f r).justInitialized = r.justInitialized) (exiting : ∀ r, (f r).exiting = r.exiting) :
    Stays s (s.setThread t f) := by
  refine ⟨rfl, rfl, fun u => ?_, fun u => ?_, fun u => ?_⟩
  · rw [setThread_thread]
    split
    · exact stack _
    · rfl
  · rw [setThread_thread]
    split
    · exact fresh _
    · rfl
  · rw [setThread_thread]
    split
    · exact exiting _
    · rfl

/-- The lists of the scheduler and of the objects are no part of it. -/
theorem Stays.lists (stays : Stays s u) {sched : Links SchedNode} {waiters : Links WaitNode} :
    Stays s { u with sched, waiters } :=
  ⟨stays.current, stays.lock, stays.kernelStacks, stays.fresh, stays.exiting⟩

theorem assert_ok {condition : Bool} (passed : assert checked condition s = .ok u) : u = s := by
  unfold assert at passed
  split at passed
  · cases passed
  · cases passed
    rfl

theorem pspReadyThread_stays (ready : pspReadyThread checked s t = .ok u) : Stays s u := by
  unfold pspReadyThread at ready
  cases passed : assert checked ((s.thread t).state ≠ .terminated) s with
  | error e =>
    rw [passed, error_bind] at ready
    cases ready
  | ok w =>
    rw [passed, ok_bind] at ready
    cases ready
    rw [assert_ok passed]
    exact (Stays.refl s).lists

theorem requeueCurrent_stays (requeued : requeueCurrent checked s = .ok u) : Stays s u := by
  unfold requeueCurrent at requeued
  split at requeued
  · exact pspReadyThread_stays requeued
  · cases requeued
    exact .refl _

theorem pspUnwaitThread_stays (unwaited : pspUnwaitThread checked s t inc = .ok u) : Stays s u := by
  unfold pspUnwaitThread at unwaited
  cases passed : assert checked ((s.thread t).state ≠ .terminated) s with
  | error e =>
    rw [passed, error_bind] at unwaited
    cases unwaited
  | ok w =>
    rw [passed, ok_bind, assert_ok passed] at unwaited
    split at unwaited
    · cases unwaited
      exact (Stays.refl s).lists.trans (stays_setThread (fun _ => rfl) (fun _ => rfl) fun _ => rfl)
    · cases unwaited
      exact .refl _

theorem processWaitListFrom_stays {node : SchedNode} (processed : processWaitListFrom checked fuel node s = .ok u) :
    Stays s u := by
  induction fuel generalizing node s with
  | zero => cases processed
  | succ fuel ih =>
    cases node with
    | psReadyListHead => cases processed
    | psWaitListHead =>
      cases processed
      exact .refl _
    | thread t =>
      unfold processWaitListFrom at processed
      have counted : Stays s (s.setThread t fun r => { r with delayedTickCount := r.delayedTickCount - 1 }) :=
        stays_setThread (fun _ => rfl) (fun _ => rfl) fun _ => rfl
      split at processed
      · dsimp only at processed
        split at processed
        · cases unwaited : pspUnwaitThread checked
            (s.setThread t fun r => { r with delayedTickCount := r.delayedTickCount - 1 }) t 0 with
          | error e =>
            rw [unwaited, error_bind] at processed
            cases processed
          | ok w =>
            rw [unwaited, ok_bind] at processed
            exact (counted.trans (pspUnwaitThread_stays unwaited)).trans (ih processed)
        · exact counted.trans (ih processed)
      · exact ih processed

theorem pspProcessWaitList_stays (processed : pspProcessWaitList checked s = .ok u) : Stays s u :=
  processWaitListFrom_stays processed

theorem kiSetEventFrom_stays {event : Nat} {node : WaitNode} (walked : kiSetEventFrom checked event inc fuel node s = .ok u) :
    Stays s u := by
  induction fuel generalizing node s with
  | zero => cases walked
  | succ fuel ih =>
    cases node with
    | waitListHead o => cases walked
    | waitBlock t i =>
      unfold kiSetEventFrom at walked
      split at walked
      · cases walked
      · dsimp only at walked
        split at walked
        · cases unwaited : pspUnwaitThread checked s t inc with
          | error e =>
            rw [unwaited, error_bind] at walked
            cases walked
          | ok w =>
            rw [unwaited, ok_bind] at walked
            refine (pspUnwaitThread_stays unwaited).trans ?_
            split at walked
            · cases walked
              exact .refl _
            · split at walked
              · cases walked
                exact .refl _
              · exact ih walked
        · split at walked
          · cases walked
            exact .refl _
          · exact ih walked

theorem stays_setSignaled {o : Nat} {b : Bool} : Stays s (s.setSignaled o b) :=
  ⟨rfl, rfl, fun _ => rfl, fun _ => rfl, fun _ => rfl⟩

theorem kiSetEvent_stays {event : Nat} {old : Bool} (set : kiSetEvent checked s event inc = .ok (old, u)) : Stays s u := by
  unfold kiSetEvent at set
  cases satisfied : satisfyWaiters checked (s.setSignaled event true) event inc with
  | error e =>
    rw [satisfied, error_bind] at set
    cases set
  | ok w =>
    rw [satisfied, ok_bind] at set
    cases set
    have signaled : Stays s (s.setSignaled event true) := stays_setSignaled
    refine signaled.trans ?_
    unfold satisfyWaiters at satisfied
    split at satisfied
    · exact kiSetEventFrom_stays satisfied
    · cases satisfied
      exact .refl _

theorem lock_free (locked : pspLockSchedulerDatabase s = .ok u) : s.schedulerLock = false ∧ u = { s with schedulerLock := true } := by
  unfold pspLockSchedulerDatabase at locked
  split at locked
  · cases locked
  · next free =>
    cases locked
    exact ⟨by simpa using free, rfl⟩

/-- A section between a lock and an unlock that leaves the rest alone leaves the lock as it was. -/
theorem Stays.section (free : s.schedulerLock = false) (inside : Stays { s with schedulerLock := true } u) :
    Stays s (pspUnlockSchedulerDatabase u) :=
  ⟨inside.current, free.symm, inside.kernelStacks, inside.fresh, inside.exiting⟩

theorem keSetEvent_stays {event : Nat} {old : Bool} (set : keSetEvent checked s event inc = .ok (old, u)) : Stays s u := by
  unfold keSetEvent at set
  cases locked : pspLockSchedulerDatabase s with
  | error e =>
    rw [locked, error_bind] at set
    cases set
  | ok w =>
    rw [locked, ok_bind] at set
    obtain ⟨free, rfl⟩ := lock_free locked
    cases done : kiSetEvent checked { s with schedulerLock := true } event inc with
    | error e =>
      rw [done, error_bind] at set
      cases set
    | ok result =>
      rw [done, ok_bind] at set
      cases set
      exact .section free (kiSetEvent_stays done)

theorem exReleaseMutex_stays {mutex : Nat} (released : exReleaseMutex checked s mutex = .ok u) : Stays s u := by
  unfold exReleaseMutex at released
  dsimp only at released
  split at released
  · cases released
    exact ⟨rfl, rfl, fun _ => rfl, fun _ => rfl, fun _ => rfl⟩
  · cases done : keSetEvent checked { s with holders := fun o =>
        if o = mutex then (s.holders o).erase s.currentThread else s.holders o } mutex 0 with
    | error e =>
      rw [done, error_bind] at released
      cases released
    | ok result =>
      rw [done, ok_bind] at released
      cases released
      have stays := keSetEvent_stays done
      exact ⟨stays.current, stays.lock, stays.kernelStacks, stays.fresh, stays.exiting⟩

theorem delayCurrent_stays {n : BitVec 32} : Stays s (delayCurrent s n) := by
  have slept : Stays s (s.setThread s.currentThread fun r => { r with
      state := .wait
      waitType := .executionDelayed
      delayedTickCount := n }) := stays_setThread (fun _ => rfl) (fun _ => rfl) fun _ => rfl
  exact slept.lists

theorem blockOn_stays {o : Nat} : Stays s (blockOn s o) := by
  have slept : Stays s (s.setThread s.currentThread fun r => { r with
      waitBlockUsed := some 0
      state := .wait
      waitType := .schedulerObjectsAny
      numberOfObjectsWaiting := 1 }) := stays_setThread (fun _ => rfl) (fun _ => rfl) fun _ => rfl
  exact slept.lists

end frames

end Gr8os.Ps
