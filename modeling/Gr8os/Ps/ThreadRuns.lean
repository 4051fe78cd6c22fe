import Gr8os.Ps.ContextSwitch
import Gr8os.Ps.SchedulerRuns

/-! A thread does not notice the others: between its own steps nothing happens to what it works with, whichever threads
the timer and the scheduler run meanwhile. -/
namespace Gr8os.Ps

open Runs

/-- What a call leaves to its caller. -/
structure Kept where
  ebx : BitVec 32
  ebp : BitVec 32
  esi : BitVec 32
  edi : BitVec 32
  interruptFlag : Bool
  eip : BitVec 32
  stack : List Cell
  exceptionList : BitVec 32
  currentException : BitVec 32

def Context.kept (c : Context) : Kept :=
  { ebx := c.registers.ebx, ebp := c.registers.ebp, esi := c.registers.esi, edi := c.registers.edi
    interruptFlag := interruptFlag c.eflags, eip := c.eip, stack := c.stack, exceptionList := c.exceptionList
    currentException := c.currentException }

/-- How a thread stands, whether it runs or not. -/
inductive View
  | absent
  | starting (startRoutine startContext : BitVec 32)
  | running (c : Context)
  | called (k : Kept)
  | ended

/-- The context in which a start routine begins. -/
def Starts (c : Context) (startRoutine startContext : BitVec 32) : Prop :=
  c.eip = startRoutine ∧ c.stack = [.place .afterStartRoutine, .word startContext] ∧ c.exceptionList = 0 ∧
    c.currentException = 0

/-- A thread alone on a processor: nothing but its own events and its calls' returns changes how it stands. -/
inductive Alone (t : Nat) : View → Event → View → Prop
  | own (c : Context) (f : Context → Context) : Alone t (.running c) (.own t f) (.running (f c))
  | callBack (c : Context) (op : SchedOp) (scratch : Registers) :
      Alone t (.running c) (.call t op scratch) (.running { c with registers := c.registers.afterCall scratch })
  | waits (c : Context) (op : SchedOp) (scratch : Registers) : Alone t (.running c) (.call t op scratch) (.called c.kept)
  | exits (c : Context) (code : BitVec 32) (scratch : Registers) :
      Alone t (.running c) (.call t (.exit code) scratch) .ended
  | creates (c : Context) (u : Nat) (a b : BitVec 32) (p : Nat) (scratch : Registers) :
      Alone t (.running c) (.create t u a b p scratch) (.running { c with registers := c.registers.afterCall scratch })
  | created (v : View) (u : Nat) (a b : BitVec 32) (p : Nat) (scratch : Registers) (other : u ≠ t) :
      Alone t v (.create u t a b p scratch) (.starting a b)
  | ends (c : Context) : Alone t (.running c) (.startRoutineReturns t) .ended
  | starts {c : Context} {a b : BitVec 32} (starts : Starts c a b) (scratch : Registers) :
      Alone t (.starting a b) (.goOn scratch) (.running c)
  | returns (c : Context) (scratch : Registers) : Alone t (.called c.kept) (.goOn scratch) (.running c)
  | other (v : View) (u : Nat) (f : Context → Context) (other : u ≠ t) : Alone t v (.own u f) v
  | otherCall (v : View) (u : Nat) (op : SchedOp) (scratch : Registers) (other : u ≠ t) : Alone t v (.call u op scratch) v
  | otherCreates (v : View) (u w : Nat) (a b : BitVec 32) (p : Nat) (scratch : Registers) (other : u ≠ t)
      (another : w ≠ t) : Alone t v (.create u w a b p scratch) v
  | otherEnds (v : View) (u : Nat) (other : u ≠ t) : Alone t v (.startRoutineReturns u) v
  | timer (v : View) (scratch : Registers) : Alone t v (.timer scratch) v
  | goesOn (v : View) (scratch : Registers) : Alone t v (.goOn scratch) v

/-- The calls on the way out of the timer's interrupt. -/
def Passes : Place → Prop
  | .afterSwapContext | .afterPspSwapThread | .afterPsSwapThread | .afterPsQuantumEnd => True
  | _ => False

/-- What a thread comes back to from a place in the kernel. -/
inductive Returns (xl ce : BitVec 32) : Place → List Cell → View → Prop
  | interrupted (c : Context) (lists : c.exceptionList = xl ∧ c.currentException = ce) :
      Returns xl ce .afterDispatcher
        (kiMakeContextFrame c.registers (.place (.own c.eip) :: .word kgdtR0Code :: .word c.eflags :: c.stack)) (.running c)
  | nested {p : Place} {stack : List Cell} {v : View} (r : Registers) (eflags : BitVec 32) (back : Returns xl ce p stack v) :
      Returns xl ce .afterDispatcher (kiMakeContextFrame r (.place p :: .word kgdtR0Code :: .word eflags :: stack)) v
  | passes {p q : Place} {stack : List Cell} {v : View} (passes : Passes p) (back : Returns xl ce q stack v) :
      Returns xl ce p (.place q :: stack) v
  | waits (call : SwapReturn) (r : Registers) (eflags : BitVec 32) (k : Kept)
      (registers : r.ebx = k.ebx ∧ r.ebp = k.ebp ∧ r.esi = k.esi ∧ r.edi = k.edi)
      (lists : k.exceptionList = xl ∧ k.currentException = ce) :
      Returns xl ce (.afterWait call)
        (waitFrame r eflags (.word (if k.interruptFlag then 1 else 0) :: .place (.own k.eip) :: k.stack)) (.called k)
  | starts (a b : BitVec 32) (lists : xl = 0 ∧ ce = 0) :
      Returns xl ce .baseThreadStartup [.word a, .word b] (.starting a b)
  | exits {p : Place} (last : p = .afterStartRoutine ∨ p = .exitTail ∨ p = .afterExitSwap) (stack : List Cell) :
      Returns xl ce p stack .ended

/-- How a thread stands that does not run: its stack leads back. -/
def Stored (s : Saved) (v : View) : Prop :=
  s.kernelStack = [] ∧ v = .absent ∨
    ∃ p stack, s.kernelStack = .place p :: stack ∧ Returns s.exceptionList s.currentException p stack v

/-- How the thread that runs stands. -/
def Live (m : Machine) (v : View) : Prop :=
  (∃ eip, m.place = .own eip ∧ v = .running (m.context eip)) ∨
    Returns m.exceptionList m.currentException m.place m.stack v

/-- How each thread stands. -/
def Shows (m : Machine) (t : Nat) (v : View) : Prop :=
  if t = m.sched.currentThread then Live m v else Stored (m.saved t) v

/-- How each thread stands just before a return. -/
def Standing (m : Machine) (t : Nat) (v : View) : Prop :=
  if t = m.sched.currentThread then
    ∃ p stack, m.stack = .place p :: stack ∧ Returns m.exceptionList m.currentException p stack v
  else Stored (m.saved t) v

theorem Returns.inside {xl ce : BitVec 32} {p : Place} {stack : List Cell} {v : View} (back : Returns xl ce p stack v)
    (eip : BitVec 32) : p ≠ .own eip := by
  rintro rfl
  cases back with
  | passes passes => exact passes
  | exits last => rcases last with h | h | h <;> cases h

theorem kiRestoreContextFrame_made (r : Registers) (stack : List Cell) :
    kiRestoreContextFrame (kiMakeContextFrame r stack) = some (r, stack) := by
  simp [kiMakeContextFrame, Registers.pushad, Registers.pushSegments, kiRestoreContextFrame]

theorem popWaitFrame_made (r : Registers) (eflags : BitVec 32) (stack : List Cell) :
    popWaitFrame (waitFrame r eflags stack) = some (r.ebx, r.ebp, r.esi, r.edi, stack) := rfl

/-- The same thread runs in the same address space, and nothing is different for the others. -/
structure SameThread (m m' : Machine) : Prop where
  current : m'.sched.currentThread = m.sched.currentThread
  saved : m'.saved = m.saved
  cr3 : m'.cr3 = m.cr3
  directories : m'.directoryTableBase = m.directoryTableBase

/-- What the thread that runs comes back to is the same too. -/
structure Undisturbed (m m' : Machine) : Prop extends SameThread m m' where
  stack : m'.stack = m.stack
  exceptionList : m'.exceptionList = m.exceptionList
  currentException : m'.currentException = m.currentException

section standing

variable {checked : Bool} {scratch : Registers} {m m' : Machine} {t : Nat} {v : View} {p : Place}

theorem Standing.same (stands : Standing m t v) (same : Undisturbed m m') : Standing m' t v := by
  unfold Standing at stands ⊢
  rwa [same.current, same.stack, same.exceptionList, same.currentException, same.saved]

theorem Standing.push (stands : Standing m t v) (passes : Passes p) : Standing (m.push (.place p)) t v := by
  unfold Standing at stands ⊢
  change if t = m.sched.currentThread then _ else Stored (m.saved t) v
  split
  · next runs =>
    rw [if_pos runs] at stands
    obtain ⟨q, stack, top, back⟩ := stands
    exact ⟨p, m.stack, rfl, top ▸ .passes passes back⟩
  · next rests => rwa [if_neg rests] at stands

theorem Standing.retn (stands : Standing m t v) (returned : m.retn = some m') : Shows m' t v := by
  unfold Machine.retn at returned
  split at returned
  · next q stack top =>
    cases returned
    unfold Standing at stands
    unfold Shows
    change if t = m.sched.currentThread then _ else Stored (m.saved t) v
    split
    · next runs =>
      rw [if_pos runs] at stands
      obtain ⟨p, _, here, back⟩ := stands
      rw [top] at here
      cases here
      exact .inr back
    · next rests => rwa [if_neg rests] at stands
  · cases returned

/-- The thread that ran keeps its stack and lists in its THREAD, and the next one has its own back. -/
theorem swapContext_swaps (call : SwapReturn) (next : Nat) :
    let u := Machine.swapContext scratch m call next
    u.sched.currentThread = next ∧
      (∀ w, u.saved w = if w = m.sched.currentThread then
        { m.saved w with
          kernelStack := m.stack, exceptionList := m.exceptionList, currentException := m.currentException }
        else m.saved w) ∧
      u.stack = (u.saved next).kernelStack ∧ u.exceptionList = (u.saved next).exceptionList ∧
      u.currentException = (u.saved next).currentException := by
  obtain ⟨-, -, -, current⟩ := swapContext_frame m.sched call next
  unfold Machine.swapContext
  dsimp only
  split
  · exact ⟨current, fun _ => rfl, rfl, rfl, rfl⟩
  · exact ⟨current, fun _ => rfl, rfl, rfl, rfl⟩

/-- Whoever runs after the switch, every thread is left with its own stack and lists. -/
theorem Standing.swapContext (stands : Standing m t v) (call : SwapReturn) {next : Nat}
    (known : (Machine.swapContext scratch m call next).stack ≠ []) :
    Standing (Machine.swapContext scratch m call next) t v := by
  obtain ⟨current, saved, stack, exceptionList, currentException⟩ := @swapContext_swaps scratch m call next
  unfold Standing at stands ⊢
  rw [current, stack, exceptionList, currentException]
  rw [stack] at known
  split
  · next runs =>
    subst runs
    rw [saved] at known ⊢
    split
    · next same => rwa [if_pos same] at stands
    · next other =>
      rw [if_neg other] at stands known
      rcases stands with ⟨empty, _⟩ | here
      · exact absurd empty known
      · exact here
  · next rests =>
    rw [saved]
    split
    · next ran =>
      rw [if_pos ran] at stands
      exact .inr stands
    · next other => rwa [if_neg other] at stands

theorem ok_of_toOption {α : Type} {x : Except Halt α} {a : α} (here : x.toOption = some a) : x = .ok a := by
  cases x with
  | error e => cases here
  | ok b => exact congrArg _ (Option.some.inj here)

/-- A change of the scheduler's state that keeps the thread that runs. -/
theorem undisturbed_sched {s : SchedState} (same : s.currentThread = m.sched.currentThread) :
    Undisturbed m { m with sched := s } :=
  ⟨⟨same, rfl, rfl, rfl⟩, rfl, rfl, rfl⟩

theorem Standing.pspSwapThread {call : SwapReturn} (stands : Standing m t v)
    (swapped : Machine.pspSwapThread checked scratch m call = some m') : Shows m' t v := by
  unfold Machine.pspSwapThread at swapped
  simp only [Option.bind_eq_bind, Option.bind_eq_some_iff] at swapped
  obtain ⟨s, requeued, w, processed, next, -, returned⟩ := swapped
  have stays := (requeueCurrent_stays (ok_of_toOption requeued)).trans (pspProcessWaitList_stays (ok_of_toOption processed))
  have pushed : Standing ({ m with sched := w }.push (.place .afterSwapContext)) t v :=
    (stands.same (undisturbed_sched stays.current)).push trivial
  refine (pushed.swapContext call fun empty => ?_).retn returned
  unfold Machine.retn at returned
  rw [empty] at returned
  cases returned

theorem Standing.lock (stands : Standing m t v) (locked : m.lock = some m') : Standing m' t v := by
  unfold Machine.lock at locked
  simp only [Option.bind_eq_bind, Option.bind_eq_some_iff, Option.pure_def, Option.some.injEq] at locked
  obtain ⟨s, taken, rfl⟩ := locked
  obtain ⟨-, rfl⟩ := lock_free (ok_of_toOption taken)
  exact stands.same ⟨⟨rfl, rfl, rfl, rfl⟩, rfl, rfl, rfl⟩

theorem Standing.psSwapThread {call : SwapReturn} (stands : Standing m t v)
    (swapped : Machine.psSwapThread checked scratch m call = some m') : Shows m' t v := by
  unfold Machine.psSwapThread at swapped
  simp only [Option.bind_eq_bind, Option.bind_eq_some_iff] at swapped
  obtain ⟨u, locked, swapped⟩ := swapped
  exact ((stands.lock locked).push (p := .afterPspSwapThread) trivial).pspSwapThread swapped

theorem Standing.dispatcher (stands : Standing m t v)
    (dispatched : Machine.pspSchedulerTimerInterruptDispatcher checked scratch m = some m') : Shows m' t v := by
  unfold Machine.pspSchedulerTimerInterruptDispatcher at dispatched
  dsimp only at dispatched
  have counted : Standing { m with sched := { m.sched with quantumLeft := m.sched.quantumLeft - 1 } } t v :=
    stands.same ⟨⟨rfl, rfl, rfl, rfl⟩, rfl, rfl, rfl⟩
  split at dispatched
  · exact counted.retn dispatched
  · unfold Machine.psQuantumEnd at dispatched
    have ready : Standing
        { { m with sched := { m.sched with quantumLeft := m.sched.quantumLeft - 1 } }.push (.place .afterPsQuantumEnd) with
          sched := SchedState.setThread { m.sched with quantumLeft := m.sched.quantumLeft - 1 } m.sched.currentThread
            fun r => { r with state := .ready } } t v :=
      (counted.push (p := .afterPsQuantumEnd) trivial).same ⟨⟨rfl, rfl, rfl, rfl⟩, rfl, rfl, rfl⟩
    exact (ready.push (p := .afterPsSwapThread) trivial).psSwapThread dispatched

theorem Shows.other (shown : Shows m t v) (rests : t ≠ m.sched.currentThread)
    (current : m'.sched.currentThread = m.sched.currentThread) (saved : m'.saved t = m.saved t) : Shows m' t v := by
  unfold Shows at shown ⊢
  rw [if_neg rests] at shown
  rwa [current, if_neg rests, saved]

theorem Shows.live (shown : Shows m t v) (runs : t = m.sched.currentThread) : Live m v := by
  unfold Shows at shown
  rwa [if_pos runs] at shown

theorem Live.shows (live : Live m v) (runs : t = m.sched.currentThread) : Shows m t v := by
  unfold Shows
  rwa [if_pos runs]

theorem Shows.leaves {u : Machine} {w : View} (shown : Shows m t v) (current : u.sched.currentThread = m.sched.currentThread)
    (saved : u.saved = m.saved) (back : t = m.sched.currentThread →
      ∃ p stack, u.stack = .place p :: stack ∧ Returns u.exceptionList u.currentException p stack w) :
    Standing u t (if t = m.sched.currentThread then w else v) := by
  unfold Shows at shown
  unfold Standing
  split
  · next runs =>
    rw [if_pos (runs.trans current)]
    exact back (runs.trans current)
  · next rests =>
    have away : t ≠ m.sched.currentThread := fun runs => rests (runs.trans current.symm)
    rw [if_neg away, saved]
    rwa [if_neg away] at shown

/-- The interrupt saves all that the thread works with. -/
theorem Shows.interrupted (shown : Shows m t v) (handled : Machine.irq0Handler checked scratch m = some m') :
    Shows m' t v := by
  unfold Machine.irq0Handler at handled
  dsimp only at handled
  refine Standing.dispatcher ?_ handled
  have stands := shown.leaves (u := Machine.push { m with
      stack := kiMakeContextFrame m.registers (.place m.place :: .word kgdtR0Code :: .word m.eflags :: m.stack)
      eflags := cli m.eflags
      registers := scratch } (.place .afterDispatcher)) (w := v) rfl rfl fun runs => by
    refine ⟨.afterDispatcher, _, rfl, ?_⟩
    rcases shown.live runs with ⟨eip, here, rfl⟩ | back
    · rw [here]
      exact .interrupted (m.context eip) ⟨rfl, rfl⟩
    · exact .nested m.registers m.eflags back
  rwa [ite_self] at stands

/-- In its own code a thread is running. -/
theorem Live.own {eip : BitVec 32} (live : Live m v) (here : m.place = .own eip) : v = .running (m.context eip) := by
  rcases live with ⟨ip, there, rfl⟩ | back
  · rw [here] at there
    cases there
    rfl
  · exact absurd here (back.inside eip)

theorem Live.back (live : Live m v) (inside : ∀ eip, m.place ≠ .own eip) :
    Returns m.exceptionList m.currentException m.place m.stack v := by
  rcases live with ⟨ip, there, _⟩ | back
  · exact absurd there (inside ip)
  · exact back

/-- On the way out of the interrupt a thread stands as it stood. -/
theorem Shows.standing (shown : Shows m t v) (passes : Passes m.place) : Standing m t v := by
  unfold Shows at shown
  unfold Standing
  split
  · next runs =>
    rw [if_pos runs] at shown
    have back := shown.back fun eip own => by rw [own] at passes; exact passes
    revert back passes
    generalize m.place = p
    generalize m.stack = stack
    intro passes back
    cases back with
    | passes _ back => exact ⟨_, _, rfl, back⟩
    | interrupted | nested | waits | starts => exact absurd passes id
    | exits last =>
      rcases last with rfl | rfl | rfl
      · exact absurd passes id
      · exact absurd passes id
      · exact absurd passes id
  · next rests => rwa [if_neg rests] at shown

/-- KiRestoreContextFrame and iretd bring back what the interrupt found. -/
theorem Live.endOfInterrupt (live : Live m v) (here : m.place = .afterDispatcher)
    (ended : m.endOfInterrupt = some m') : Live m' v := by
  have back := live.back fun eip own => by rw [here] at own; cases own
  rw [here] at back
  unfold Machine.endOfInterrupt at ended
  generalize frame : m.stack = stack at back ended
  generalize lists : m.exceptionList = xl at back
  generalize exceptions : m.currentException = ce at back
  cases back with
  | interrupted c same =>
    rw [kiRestoreContextFrame_made] at ended
    cases ended
    refine .inl ⟨c.eip, rfl, ?_⟩
    rw [Machine.context, lists, exceptions, ← same.1, ← same.2]
  | nested r eflags back =>
    rw [kiRestoreContextFrame_made] at ended
    cases ended
    exact .inr (lists ▸ exceptions ▸ back)
  | passes passes => exact absurd passes id
  | exits last => rcases last with h | h | h <;> cases h

theorem interruptFlag_sti (eflags : BitVec 32) : interruptFlag (sti eflags) = true := by
  simp [interruptFlag, sti, interruptBit]

theorem interruptFlag_cli (eflags : BitVec 32) : interruptFlag (cli eflags) = false := by
  simp [interruptFlag, cli, interruptBit]

theorem interruptFlag_released (eflags : BitVec 32) (b : Bool) :
    interruptFlag (if b then sti eflags else cli eflags) = b := by
  cases b
  · exact interruptFlag_cli eflags
  · exact interruptFlag_sti eflags

theorem oldIrqState_word (b : Bool) : decide ((if b then 1 else 0 : BitVec 32) ≠ 0) = b := by
  cases b <;> rfl

/-- What a call has saved is its caller's again when the wait is over. -/
theorem Live.finishWait {call : SwapReturn} (live : Live m v) (here : m.place = .afterWait call)
    (finished : m.finishWait call = some m') : ∃ c, v = .called c.kept ∧ Live m' (.running c) := by
  have back := live.back fun eip own => by rw [here] at own; cases own
  rw [here] at back
  unfold Machine.finishWait at finished
  generalize frame : m.stack = stack at back finished
  generalize lists : m.exceptionList = xl at back
  generalize exceptions : m.currentException = ce at back
  cases back with
  | waits _ r eflags k registers same =>
    rw [popWaitFrame_made] at finished
    dsimp only [Machine.keReleaseIrqState, Machine.unlock, Machine.retn] at finished
    cases finished
    refine ⟨_, ?_, .inl ⟨k.eip, rfl, rfl⟩⟩
    obtain ⟨rfl, rfl⟩ := same
    obtain ⟨ebx, ebp, esi, edi⟩ := registers
    rw [Machine.context, Context.kept]
    dsimp only
    rw [oldIrqState_word, interruptFlag_released, ebx, ebp, esi, edi, lists, exceptions]
  | passes passes => exact absurd passes id
  | exits last => rcases last with h | h | h <;> cases h

/-- The thread that exits keeps the processor until it swaps. -/
theorem psExitThread_leaves {s u : SchedState} {code : BitVec 32} (exited : Ps.psExitThread s code = .ok u) :
    u.currentThread = s.currentThread ∧ u.schedulerLock = s.schedulerLock ∧ u.current.exiting = true ∧
      (∀ t, (u.thread t).kernelStack = (s.thread t).kernelStack) ∧
      ∀ t, (u.thread t).justInitialized = (s.thread t).justInitialized := by
  unfold Ps.psExitThread at exited
  cases locked : pspLockSchedulerDatabase s with
  | error e =>
    rw [locked, error_bind] at exited
    cases exited
  | ok w =>
    rw [locked, ok_bind] at exited
    obtain ⟨free, rfl⟩ := lock_free locked
    cases exited
    refine ⟨rfl, free.symm, ?_, fun t => ?_, fun t => ?_⟩
    · change (if s.currentThread = s.currentThread then _ else _ : Thread).exiting = true
      rw [if_pos rfl]
    · rw [unlock_thread, setThread_thread]
      split
      · rfl
      · rfl
    · rw [unlock_thread, setThread_thread]
      split
      · rfl
      · rfl

theorem Machine.psExitThread_exits {code : BitVec 32} (exited : m.psExitThread code = some m') :
    m'.place = .exitTail ∧ Undisturbed m m' := by
  unfold Machine.psExitThread at exited
  simp only [Option.bind_eq_bind, Option.bind_eq_some_iff, Option.pure_def, Option.some.injEq] at exited
  obtain ⟨s, done, rfl⟩ := exited
  exact ⟨rfl, ⟨(psExitThread_leaves (ok_of_toOption done)).1, rfl, rfl, rfl⟩, rfl, rfl, rfl⟩

theorem Shows.standing_other (shown : Shows m t v) (rests : t ≠ m.sched.currentThread) : Standing m t v := by
  unfold Shows at shown
  unfold Standing
  rw [if_neg rests] at shown ⊢
  exact shown

/-- A thread that ends stays ended, whatever is on its stack. -/
theorem Standing.ended (shown : Shows m t v) (last : p = .afterStartRoutine ∨ p = .exitTail ∨ p = .afterExitSwap)
    (ended : t = m.sched.currentThread → v = .ended) : Standing (m.push (.place p)) t v := by
  by_cases runs : t = m.sched.currentThread
  · unfold Standing
    refine (if_pos runs).mpr ⟨p, m.stack, rfl, ?_⟩
    rw [ended runs]
    exact .exits last _
  · have stands := shown.standing_other runs
    unfold Standing at stands ⊢
    exact (if_neg runs).mpr ((if_neg runs).mp stands)

theorem returns_ended {xl ce : BitVec 32} {stack : List Cell} (back : Returns xl ce p stack v)
    (last : p = .afterStartRoutine ∨ p = .exitTail ∨ p = .afterExitSwap) : v = .ended := by
  cases back with
  | exits => rfl
  | passes passes => rcases last with rfl | rfl | rfl <;> exact absurd passes id
  | interrupted | nested | waits | starts => rcases last with h | h | h <;> cases h

theorem Live.ended (live : Live m v) (last : m.place = .afterStartRoutine ∨ m.place = .exitTail ∨ m.place = .afterExitSwap) :
    v = .ended := by
  refine returns_ended (live.back fun eip own => ?_) last
  rw [own] at last
  rcases last with h | h | h <;> cases h

/-- The thread runs on, and for the others nothing is different. -/
theorem Shows.goes {e : Event} {w : View} (shown : Shows m t v) (same : SameThread m m') (stays : ∀ v, Alone t v e v)
    (alone : t = m.sched.currentThread → Alone t v e w ∧ Live m' w) : ∃ w, Alone t v e w ∧ Shows m' t w := by
  by_cases runs : t = m.sched.currentThread
  · exact ⟨w, (alone runs).1, (alone runs).2.shows (runs.trans same.current.symm)⟩
  · exact ⟨v, stays v, shown.other runs same.current (congrFun same.saved t)⟩

theorem Live.startup (live : Live m v) (here : m.place = .baseThreadStartup)
    (started : Machine.goOn checked scratch m = some m') :
    ∃ c a b, v = .starting a b ∧ Starts c a b ∧ Live m' (.running c) := by
  have back := live.back fun eip own => by rw [here] at own; cases own
  rw [here] at back
  unfold Machine.goOn at started
  rw [here] at started
  generalize frame : m.stack = stack at back started
  generalize lists : m.exceptionList = xl at back
  generalize exceptions : m.currentException = ce at back
  cases back with
  | starts a b none =>
    cases started
    exact ⟨_, a, b, rfl, ⟨rfl, rfl, lists.trans none.1, exceptions.trans none.2⟩, .inl ⟨a, rfl, rfl⟩⟩
  | passes passes => exact absurd passes id
  | exits last => rcases last with h | h | h <;> cases h

theorem endOfInterrupt_same (ended : m.endOfInterrupt = some m') : SameThread m m' := by
  unfold Machine.endOfInterrupt at ended
  split at ended
  · cases ended
    exact ⟨rfl, rfl, rfl, rfl⟩
  · cases ended

theorem takeMutex_stays {s : SchedState} {call : SwapReturn} : Stays s (takeMutex s call) := by
  unfold takeMutex
  split
  · exact ⟨rfl, rfl, fun _ => rfl, fun _ => rfl, fun _ => rfl⟩
  · exact .refl s

theorem retn_same (returned : m.retn = some m') : SameThread m m' := by
  unfold Machine.retn at returned
  split at returned
  · cases returned
    exact ⟨rfl, rfl, rfl, rfl⟩
  · cases returned

theorem finishWait_same {call : SwapReturn} (finished : m.finishWait call = some m') : SameThread m m' := by
  unfold Machine.finishWait at finished
  split at finished
  · obtain ⟨current, saved, cr3, directories⟩ := retn_same finished
    exact ⟨current.trans takeMutex_stays.current, saved, cr3, directories⟩
  · cases finished

theorem startup_same (here : m.place = .baseThreadStartup) (started : Machine.goOn checked scratch m = some m') :
    SameThread m m' := by
  unfold Machine.goOn at started
  rw [here] at started
  dsimp only at started
  split at started
  · cases started
    exact ⟨rfl, rfl, rfl, rfl⟩
  · cases started

theorem Shows.goOn (shown : Shows m t v) (went : Machine.goOn checked scratch m = some m') :
    ∃ w, Alone t v (.goOn scratch) w ∧ Shows m' t w := by
  have stay (w : View) : Alone t w (.goOn scratch) w := .goesOn w scratch
  have code := went
  unfold Machine.goOn at code
  cases here : m.place with
  | own eip =>
    rw [here] at code
    cases code
  | baseThreadStartup =>
    have same := startup_same here went
    by_cases runs : t = m.sched.currentThread
    · obtain ⟨c, a, b, rfl, starts, live⟩ := (shown.live runs).startup here went
      exact ⟨_, .starts starts scratch, live.shows (runs.trans same.current.symm)⟩
    · exact ⟨v, stay v, shown.other runs same.current (congrFun same.saved t)⟩
  | afterStartRoutine =>
    rw [here] at code
    obtain ⟨tail, undisturbed⟩ := Machine.psExitThread_exits code
    refine shown.goes undisturbed.toSameThread stay fun runs => ⟨stay v, .inr ?_⟩
    rw [tail, (shown.live runs).ended (.inl here)]
    exact .exits (.inr (.inl rfl)) _
  | afterSwapContext | afterPsSwapThread | afterPsQuantumEnd =>
    rw [here] at code
    exact ⟨v, stay v, (shown.standing (by rw [here]; trivial)).retn code⟩
  | afterPspSwapThread =>
    rw [here] at code
    have unlocked : Standing m.unlock t v := (shown.standing (by rw [here]; trivial)).same ⟨⟨rfl, rfl, rfl, rfl⟩, rfl, rfl, rfl⟩
    exact ⟨v, stay v, unlocked.retn code⟩
  | afterDispatcher =>
    rw [here] at code
    have same := endOfInterrupt_same code
    exact shown.goes same stay fun runs => ⟨stay v, (shown.live runs).endOfInterrupt here code⟩
  | afterWait call =>
    rw [here] at code
    have same := finishWait_same code
    by_cases runs : t = m.sched.currentThread
    · obtain ⟨c, rfl, live⟩ := (shown.live runs).finishWait here code
      exact ⟨_, .returns c scratch, live.shows (runs.trans same.current.symm)⟩
    · exact ⟨v, stay v, shown.other runs same.current (congrFun same.saved t)⟩
  | exitTail =>
    rw [here] at code
    have ended := Standing.ended (p := .afterExitSwap) shown (.inr (.inr rfl)) fun runs =>
      (shown.live runs).ended (.inr (.inl here))
    exact ⟨v, stay v, ended.psSwapThread code⟩
  | afterExitSwap =>
    rw [here] at code
    cases code

/-- A thread that has to wait leaves behind what its call will give back to it. -/
theorem Shows.startWait {call : SwapReturn} {sleep : SchedState → SchedState} {eip : BitVec 32} (shown : Shows m t v)
    (own : m.place = .own eip) (sleeps : ∀ s, (sleep s).currentThread = s.currentThread)
    (started : Machine.startWait checked scratch m call sleep = some m') :
    Shows m' t (if t = m.sched.currentThread then .called (m.context eip).kept else v) := by
  unfold Machine.startWait at started
  simp only [Option.bind_eq_bind, Option.bind_eq_some_iff] at started
  obtain ⟨u, locked, swapped⟩ := started
  refine Standing.pspSwapThread ?_ swapped
  unfold Machine.lock at locked
  simp only [Option.bind_eq_bind, Option.bind_eq_some_iff, Option.pure_def, Option.some.injEq] at locked
  obtain ⟨s, taken, rfl⟩ := locked
  obtain ⟨-, rfl⟩ := lock_free (ok_of_toOption taken)
  refine shown.leaves (sleeps _) rfl fun _ => ⟨.afterWait call, _, rfl, ?_⟩
  rw [own]
  exact .waits call m.registers _ (m.context eip).kept ⟨rfl, rfl, rfl, rfl⟩ ⟨rfl, rfl⟩

theorem pspCreateThread_current {s u : SchedState} {w : Nat} (created : Ps.pspCreateThread s w = .ok u) :
    u.currentThread = s.currentThread := by
  unfold Ps.pspCreateThread at created
  cases locked : pspLockSchedulerDatabase s with
  | error e =>
    rw [locked, error_bind] at created
    cases created
  | ok x =>
    rw [locked, ok_bind] at created
    obtain ⟨-, rfl⟩ := lock_free locked
    cases created
    rfl

theorem psTerminateThread_current {s u : SchedState} {w : Nat} {code : BitVec 32}
    (terminated : psTerminateThread s w code = .ok u) : u.currentThread = s.currentThread := by
  unfold psTerminateThread at terminated
  cases locked : pspLockSchedulerDatabase s with
  | error e =>
    rw [locked, error_bind] at terminated
    cases terminated
  | ok x =>
    rw [locked, ok_bind] at terminated
    obtain ⟨-, rfl⟩ := lock_free locked
    cases terminated
    rfl

theorem waitPassed_stays {s u : SchedState} {o : Nat} (signaled : (s.header o).signaledState = true)
    (waited : keWaitForSingleObject checked s o = .ok u) : Stays s u := by
  unfold keWaitForSingleObject at waited
  cases locked : pspLockSchedulerDatabase s with
  | error e =>
    rw [locked, error_bind] at waited
    cases waited
  | ok x =>
    rw [locked, ok_bind] at waited
    obtain ⟨free, rfl⟩ := lock_free locked
    rw [if_pos signaled] at waited
    cases waited
    exact .section free (.refl _)

theorem acquirePassed_stays {s u : SchedState} {x : Nat}
    (passes : s.kiInitializationPhase = 0 ∨ (s.header x).signaledState = true)
    (acquired : exAcquireMutex checked s x = .ok u) : Stays s u := by
  unfold exAcquireMutex at acquired
  dsimp only at acquired
  split at acquired
  · cases acquired
    exact ⟨rfl, rfl, fun _ => rfl, fun _ => rfl, fun _ => rfl⟩
  · next later =>
    cases locked : pspLockSchedulerDatabase s with
    | error e =>
      rw [locked, error_bind] at acquired
      cases acquired
    | ok y =>
      rw [locked, ok_bind] at acquired
      obtain ⟨free, rfl⟩ := lock_free locked
      rw [if_pos (passes.resolve_left later)] at acquired
      cases acquired
      exact ⟨rfl, free.symm, fun _ => rfl, fun _ => rfl, fun _ => rfl⟩

theorem setEvent_stays {s u : SchedState} {o : Nat} {inc : BitVec 16}
    (set : (keSetEvent checked s o inc).map Prod.snd = .ok u) : Stays s u := by
  cases done : keSetEvent checked s o inc with
  | error e =>
    rw [done] at set
    cases set
  | ok result =>
    rw [done] at set
    cases set
    exact keSetEvent_stays done

theorem not_switches_acquire {s : SchedState} {x : Nat} (stays : ¬Switches s (.acquire x)) :
    s.kiInitializationPhase = 0 ∨ (s.header x).signaledState = true := by
  by_cases first : s.kiInitializationPhase = 0
  · exact .inl first
  · exact .inr (eq_true_of_ne_false fun unsignaled => stays ⟨first, unsignaled⟩)

/-- An operation that does not switch leaves the processor to the thread that runs. -/
theorem perform_current {s u : SchedState} {op : SchedOp} (stays : ¬Switches s op) (performed : perform checked s op = .ok u) :
    u.currentThread = s.currentThread := by
  cases op with
  | create w => exact pspCreateThread_current performed
  | wait o => exact (waitPassed_stays (eq_true_of_ne_false stays) performed).current
  | setEvent o inc => exact (setEvent_stays performed).current
  | delay n => exact absurd trivial stays
  | exit code => exact (psExitThread_leaves performed).1
  | exitSwap => exact absurd trivial stays
  | terminate w code => exact psTerminateThread_current performed
  | quantumEnd => exact absurd trivial stays
  | acquire x => exact (acquirePassed_stays (not_switches_acquire stays) performed).current
  | release x => exact (exReleaseMutex_stays performed).current

theorem callBack_same {op : SchedOp} (stays : ¬Switches m.sched op) (called : m.callBack checked op scratch = some m') :
    SameThread m m' := by
  unfold Machine.callBack at called
  simp only [Option.bind_eq_bind, Option.bind_eq_some_iff, Option.pure_def, Option.some.injEq] at called
  obtain ⟨s, performed, rfl⟩ := called
  exact ⟨perform_current stays (ok_of_toOption performed), rfl, rfl, rfl⟩

/-- A call that comes back at once. -/
theorem Shows.callBack {op : SchedOp} {eip : BitVec 32} (shown : Shows m t v) (own : m.place = .own eip)
    (stays : ¬Switches m.sched op) (called : m.callBack checked op scratch = some m') :
    Shows m' t (if t = m.sched.currentThread then
      .running { m.context eip with registers := m.registers.afterCall scratch } else v) := by
  unfold Machine.callBack at called
  simp only [Option.bind_eq_bind, Option.bind_eq_some_iff, Option.pure_def, Option.some.injEq] at called
  obtain ⟨s, performed, rfl⟩ := called
  have current := perform_current stays (ok_of_toOption performed)
  split
  · next runs => exact Live.shows (.inl ⟨eip, own, rfl⟩) (runs.trans current.symm)
  · next rests => exact shown.other rests current rfl

theorem Shows.call {op : SchedOp} {eip : BitVec 32} (shown : Shows m t v) (own : m.place = .own eip)
    (called : m.call checked op scratch = some m') :
    ∃ w, Alone t v (.call m.sched.currentThread op scratch) w ∧ Shows m' t w := by
  have alone (w : View) (first : t = m.sched.currentThread →
      Alone t (.running (m.context eip)) (.call t op scratch) w) :
      Alone t v (.call m.sched.currentThread op scratch) (if t = m.sched.currentThread then w else v) := by
    split
    · next runs =>
      rw [(shown.live runs).own own, ← runs]
      exact first runs
    · next rests => exact .otherCall v _ op scratch (Ne.symm rests)
  have back (stays : ¬Switches m.sched op) (called : m.callBack checked op scratch = some m') :
      ∃ w, Alone t v (.call m.sched.currentThread op scratch) w ∧ Shows m' t w :=
    ⟨_, alone _ fun _ => .callBack (m.context eip) op scratch, shown.callBack own stays called⟩
  have wait {call : SwapReturn} {sleep : SchedState → SchedState} (sleeps : ∀ s, Stays s (sleep s))
      (started : Machine.startWait checked scratch m call sleep = some m') :
      ∃ w, Alone t v (.call m.sched.currentThread op scratch) w ∧ Shows m' t w :=
    ⟨_, alone _ fun _ => .waits (m.context eip) op scratch, shown.startWait own (fun s => (sleeps s).current) started⟩
  unfold Machine.call at called
  cases op with
  | delay n => exact wait (fun s => delayCurrent_stays) called
  | wait o =>
    dsimp only at called
    split at called
    · next signaled => exact back (fun switches => by rw [Switches, signaled] at switches; cases switches) called
    · exact wait (fun s => blockOn_stays) called
  | acquire x =>
    dsimp only at called
    split at called
    · next passes =>
      refine back (fun switches => ?_) called
      rcases passes with first | signaled
      · exact switches.1 first
      · exact absurd (signaled.symm.trans switches.2) nofun
    · exact wait (fun s => blockOn_stays) called
  | exit code =>
    obtain ⟨tail, undisturbed⟩ := Machine.psExitThread_exits called
    refine ⟨_, alone _ fun _ => .exits (m.context eip) code scratch, ?_⟩
    split
    · next runs =>
      refine Live.shows (.inr ?_) (runs.trans undisturbed.current.symm)
      rw [tail]
      exact .exits (.inr (.inl rfl)) _
    · next rests => exact shown.other rests undisturbed.current (congrFun undisturbed.saved t)
  | setEvent o inc => exact back id called
  | terminate w code => exact back id called
  | release x => exact back id called
  | create w => cases called
  | exitSwap => cases called
  | quantumEnd => cases called

theorem save_self {f : Saved → Saved} : (m.save t f).saved t = f (m.saved t) := if_pos rfl

theorem Shows.create {u p : Nat} {a b eip : BitVec 32} (shown : Shows m t v) (own : m.place = .own eip)
    (other : u ≠ m.sched.currentThread) (created : m.pspCreateThread checked u a b p scratch = some m') :
    ∃ w, Alone t v (.create m.sched.currentThread u a b p scratch) w ∧ Shows m' t w := by
  unfold Machine.pspCreateThread at created
  simp only [Option.bind_eq_bind, Option.bind_eq_some_iff, Option.pure_def, Option.some.injEq] at created
  obtain ⟨c, called, rfl⟩ := created
  have quiet : ¬Switches m.sched (.create u) := id
  have back := shown.callBack own quiet called
  have same := callBack_same quiet called
  by_cases runs : t = m.sched.currentThread
  · rw [if_pos runs] at back
    rw [(shown.live runs).own own, ← runs]
    exact ⟨_, .creates (m.context eip) u a b p scratch,
      Live.shows (m := c.save u _) (back.live (runs.trans same.current.symm)) (runs.trans same.current.symm)⟩
  · have away : t ≠ c.sched.currentThread := fun here => runs (here.trans same.current)
    by_cases new : t = u
    · subst new
      refine ⟨_, .created v _ a b p scratch (Ne.symm runs), ?_⟩
      unfold Shows
      refine (if_neg away).mpr ?_
      rw [save_self]
      exact .inr ⟨.baseThreadStartup, _, rfl, .starts a b ⟨rfl, rfl⟩⟩
    · rw [if_neg runs] at back
      exact ⟨v, .otherCreates v _ u a b p scratch (Ne.symm runs) (Ne.symm new),
        back.other away rfl (if_neg new)⟩

theorem Shows.startRoutineReturns {eip : BitVec 32} {stack : List Cell} (shown : Shows m t v) (own : m.place = .own eip)
    (top : m.stack = .place .afterStartRoutine :: stack) (returned : m.retn = some m') :
    ∃ w, Alone t v (.startRoutineReturns m.sched.currentThread) w ∧ Shows m' t w := by
  unfold Machine.retn at returned
  rw [top] at returned
  cases returned
  by_cases runs : t = m.sched.currentThread
  · rw [(shown.live runs).own own, ← runs]
    exact ⟨_, .ends (m.context eip), Live.shows (.inr (.exits (.inl rfl) _)) runs⟩
  · exact ⟨v, .otherEnds v _ (Ne.symm runs), shown.other runs rfl rfl⟩

theorem Shows.own {f : Context → Context} {eip : BitVec 32} (shown : Shows m t v) (own : m.place = .own eip) :
    ∃ w, Alone t v (.own m.sched.currentThread f) w ∧ Shows (m.setContext (f (m.context eip))) t w := by
  by_cases runs : t = m.sched.currentThread
  · rw [(shown.live runs).own own, ← runs]
    exact ⟨_, .own (m.context eip) f, Live.shows (.inl ⟨_, rfl, rfl⟩) runs⟩
  · exact ⟨v, .other v _ f (Ne.symm runs), shown.other runs rfl rfl⟩

/-- Each thread stands after a step as the step alone leaves it. -/
theorem Shows.step {e : Event} (shown : Shows m t v) (stepped : machineStep checked m e = some m') :
    ∃ w, Alone t v e w ∧ Shows m' t w := by
  unfold machineStep at stepped
  cases e with
  | own u f =>
    dsimp only at stepped
    split at stepped
    · next eip here =>
      split at stepped
      · next runs =>
        cases stepped
        exact runs ▸ shown.own here
      · cases stepped
    · cases stepped
  | call u op scratch =>
    dsimp only at stepped
    split at stepped
    · next eip here =>
      split at stepped
      · next enabled => exact enabled.1 ▸ shown.call here stepped
      · cases stepped
    · cases stepped
  | create u w a b p scratch =>
    dsimp only at stepped
    split at stepped
    · next eip here =>
      split at stepped
      · next enabled => exact enabled.1 ▸ shown.create here (enabled.1 ▸ enabled.2.1) stepped
      · cases stepped
    · cases stepped
  | startRoutineReturns u =>
    dsimp only at stepped
    split at stepped
    · next eip stack here top =>
      split at stepped
      · next runs => exact runs ▸ shown.startRoutineReturns here top stepped
      · cases stepped
    · cases stepped
  | timer scratch =>
    dsimp only at stepped
    split at stepped
    · exact ⟨v, .timer v scratch, shown.interrupted stepped⟩
    · cases stepped
  | goOn scratch => exact shown.goOn stepped

end standing

/-- What a step does to the processor: it leaves it to the thread that runs, or swaps two contexts. -/
inductive Moves (m m' : Machine) : Prop
  | stays (same : SameThread m m')
  | creates {c : Machine} (same : SameThread m c) (u : Nat) (other : u ≠ m.sched.currentThread) (f : Saved → Saved)
      (saved : m' = c.save u f)
  | swaps {c : Machine} (same : SameThread m c) (scratch : Registers) (call : SwapReturn) (next : Nat)
      (returned : (Machine.swapContext scratch c call next).retn = some m')

section moves

variable {checked : Bool} {scratch : Registers} {m m' c : Machine} {call : SwapReturn}

theorem SameThread.trans (first : SameThread m c) (second : SameThread c m') : SameThread m m' :=
  ⟨second.current.trans first.current, second.saved.trans first.saved, second.cr3.trans first.cr3,
    second.directories.trans first.directories⟩

theorem pspSwapThread_moves (same : SameThread m c) (swapped : Machine.pspSwapThread checked scratch c call = some m') :
    Moves m m' := by
  unfold Machine.pspSwapThread at swapped
  simp only [Option.bind_eq_bind, Option.bind_eq_some_iff] at swapped
  obtain ⟨s, requeued, w, processed, next, -, returned⟩ := swapped
  have stays := (requeueCurrent_stays (ok_of_toOption requeued)).trans (pspProcessWaitList_stays (ok_of_toOption processed))
  have pushed : SameThread c ({ c with sched := w }.push (.place .afterSwapContext)) := ⟨stays.current, rfl, rfl, rfl⟩
  exact .swaps (same.trans pushed) scratch call next returned

theorem lock_same (locked : m.lock = some m') : SameThread m m' := by
  unfold Machine.lock at locked
  simp only [Option.bind_eq_bind, Option.bind_eq_some_iff, Option.pure_def, Option.some.injEq] at locked
  obtain ⟨s, taken, rfl⟩ := locked
  obtain ⟨-, rfl⟩ := lock_free (ok_of_toOption taken)
  exact ⟨rfl, rfl, rfl, rfl⟩

theorem psSwapThread_moves (same : SameThread m c) (swapped : Machine.psSwapThread checked scratch c call = some m') :
    Moves m m' := by
  unfold Machine.psSwapThread at swapped
  simp only [Option.bind_eq_bind, Option.bind_eq_some_iff] at swapped
  obtain ⟨u, locked, swapped⟩ := swapped
  obtain ⟨current, saved, cr3, directories⟩ := same.trans (lock_same locked)
  refine pspSwapThread_moves ?_ swapped
  exact ⟨current, saved, cr3, directories⟩

theorem irq0Handler_moves (handled : Machine.irq0Handler checked scratch m = some m') : Moves m m' := by
  unfold Machine.irq0Handler Machine.pspSchedulerTimerInterruptDispatcher at handled
  dsimp only at handled
  split at handled
  · obtain ⟨current, saved, cr3, directories⟩ := retn_same handled
    exact .stays ⟨current, saved, cr3, directories⟩
  · unfold Machine.psQuantumEnd at handled
    refine psSwapThread_moves ?_ handled
    exact ⟨rfl, rfl, rfl, rfl⟩

theorem startWait_moves {sleep : SchedState → SchedState} (sleeps : ∀ s, Stays s (sleep s))
    (started : Machine.startWait checked scratch m call sleep = some m') : Moves m m' := by
  unfold Machine.startWait at started
  simp only [Option.bind_eq_bind, Option.bind_eq_some_iff] at started
  obtain ⟨u, locked, swapped⟩ := started
  obtain ⟨current, saved, cr3, directories⟩ := lock_same locked
  refine pspSwapThread_moves ?_ swapped
  exact ⟨(sleeps _).current.trans current, saved, cr3, directories⟩

theorem call_moves {op : SchedOp} (called : m.call checked op scratch = some m') : Moves m m' := by
  unfold Machine.call at called
  cases op with
  | delay n => exact startWait_moves (fun _ => delayCurrent_stays) called
  | wait o =>
    dsimp only at called
    split at called
    · next signaled => exact .stays (callBack_same (fun switches => by rw [Switches, signaled] at switches; cases switches) called)
    · exact startWait_moves (fun _ => blockOn_stays) called
  | acquire x =>
    dsimp only at called
    split at called
    · next passes =>
      refine .stays (callBack_same (fun switches => ?_) called)
      rcases passes with first | signaled
      · exact switches.1 first
      · exact absurd (signaled.symm.trans switches.2) nofun
    · exact startWait_moves (fun _ => blockOn_stays) called
  | exit code => exact .stays (Machine.psExitThread_exits called).2.toSameThread
  | setEvent o inc => exact .stays (callBack_same id called)
  | terminate w code => exact .stays (callBack_same id called)
  | release x => exact .stays (callBack_same id called)
  | create w => cases called
  | exitSwap => cases called
  | quantumEnd => cases called

theorem goOn_moves (went : Machine.goOn checked scratch m = some m') : Moves m m' := by
  have code := went
  unfold Machine.goOn at code
  cases here : m.place with
  | own eip =>
    rw [here] at code
    cases code
  | baseThreadStartup => exact .stays (startup_same here went)
  | afterStartRoutine =>
    rw [here] at code
    exact .stays (Machine.psExitThread_exits code).2.toSameThread
  | afterSwapContext | afterPsSwapThread | afterPsQuantumEnd =>
    rw [here] at code
    exact .stays (retn_same code)
  | afterPspSwapThread =>
    rw [here] at code
    obtain ⟨current, saved, cr3, directories⟩ := retn_same code
    exact .stays ⟨current, saved, cr3, directories⟩
  | afterDispatcher =>
    rw [here] at code
    exact .stays (endOfInterrupt_same code)
  | afterWait call =>
    rw [here] at code
    exact .stays (finishWait_same code)
  | exitTail =>
    rw [here] at code
    refine psSwapThread_moves ?_ code
    exact ⟨rfl, rfl, rfl, rfl⟩
  | afterExitSwap =>
    rw [here] at code
    cases code

theorem step_moves {e : Event} (stepped : machineStep checked m e = some m') : Moves m m' := by
  unfold machineStep at stepped
  cases e with
  | own u f =>
    dsimp only at stepped
    split at stepped
    · split at stepped
      · cases stepped
        exact .stays ⟨rfl, rfl, rfl, rfl⟩
      · cases stepped
    · cases stepped
  | call u op scratch =>
    dsimp only at stepped
    split at stepped
    · split at stepped
      · exact call_moves stepped
      · cases stepped
    · cases stepped
  | create u w a b p scratch =>
    dsimp only at stepped
    split at stepped
    · split at stepped
      · next enabled =>
        unfold Machine.pspCreateThread at stepped
        simp only [Option.bind_eq_bind, Option.bind_eq_some_iff, Option.pure_def, Option.some.injEq] at stepped
        obtain ⟨c, called, rfl⟩ := stepped
        have quiet : ¬Switches m.sched (.create w) := id
        exact .creates (callBack_same quiet called) w (enabled.1 ▸ enabled.2.1) _ rfl
      · cases stepped
    · cases stepped
  | startRoutineReturns u =>
    dsimp only at stepped
    split at stepped
    · split at stepped
      · exact .stays (retn_same stepped)
      · cases stepped
    · cases stepped
  | timer scratch =>
    dsimp only at stepped
    split at stepped
    · exact irq0Handler_moves stepped
    · cases stepped
  | goOn scratch => exact goOn_moves stepped

/-- CR3 has the directory of the process that owns the thread that runs. -/
def OwnSpace (m : Machine) : Prop := m.cr3 = m.directoryTableBase (m.saved m.sched.currentThread).owningProcess

theorem OwnSpace.same (own : OwnSpace m) (same : SameThread m m') : OwnSpace m' := by
  unfold OwnSpace at own ⊢
  rwa [same.cr3, same.directories, same.saved, same.current]

theorem swapContext_space (next : Nat) :
    let u := Machine.swapContext scratch m call next
    u.cr3 = (if (m.saved m.sched.currentThread).owningProcess = (m.saved next).owningProcess then m.cr3
      else m.directoryTableBase (m.saved next).owningProcess) ∧
      u.directoryTableBase = m.directoryTableBase ∧ ∀ w, (u.saved w).owningProcess = (m.saved w).owningProcess := by
  obtain ⟨-, saved, -⟩ := @swapContext_swaps scratch m call next
  have owners (w : Nat) : ((Machine.swapContext scratch m call next).saved w).owningProcess = (m.saved w).owningProcess := by
    rw [saved]
    split
    · rfl
    · rfl
  have code : (Machine.swapContext scratch m call next).cr3 =
      if ((Machine.swapContext scratch m call next).saved m.sched.currentThread).owningProcess =
        ((Machine.swapContext scratch m call next).saved next).owningProcess then m.cr3
      else m.directoryTableBase ((Machine.swapContext scratch m call next).saved next).owningProcess := by
    unfold Machine.swapContext
    dsimp only
    split
    · rfl
    · rfl
  refine ⟨?_, ?_, owners⟩
  · rw [code, owners, owners]
  · unfold Machine.swapContext
    dsimp only
    split
    · rfl
    · rfl

theorem OwnSpace.swapContext (own : OwnSpace m) (next : Nat) : OwnSpace (Machine.swapContext scratch m call next) := by
  obtain ⟨cr3, directories, owners⟩ := @swapContext_space scratch m call next
  obtain ⟨current, -⟩ := @swapContext_swaps scratch m call next
  unfold OwnSpace at own ⊢
  rw [cr3, directories, owners, current]
  split
  · next same => rw [own, same]
  · rfl

theorem OwnSpace.save {u : Nat} {f : Saved → Saved} (own : OwnSpace m) (other : m.sched.currentThread ≠ u) :
    OwnSpace (m.save u f) := by
  have kept : (m.save u f).saved m.sched.currentThread = m.saved m.sched.currentThread := if_neg other
  unfold OwnSpace at own ⊢
  change m.cr3 = m.directoryTableBase ((m.save u f).saved m.sched.currentThread).owningProcess
  rwa [kept]

theorem OwnSpace.step {e : Event} (own : OwnSpace m) (stepped : machineStep checked m e = some m') : OwnSpace m' := by
  rcases step_moves stepped with same | ⟨same, u, other, f, rfl⟩ | ⟨same, scratch, call, next, returned⟩
  · exact own.same same
  · exact (own.same same).save fun here => other (here.symm.trans same.current)
  · exact ((own.same same).swapContext next).same (retn_same returned)

end moves

/-- The machine when the first thread has been made: it runs its own code, and there are no others. -/
structure Launched (m : Machine) (eip : BitVec 32) : Prop where
  place : m.place = .own eip
  others : ∀ t, t ≠ m.sched.currentThread → (m.saved t).kernelStack = []
  space : OwnSpace m

/-- How the threads stand then. -/
def firstView (m : Machine) (eip : BitVec 32) (t : Nat) : View :=
  if t = m.sched.currentThread then .running (m.context eip) else .absent

theorem Launched.shows {m : Machine} {eip : BitVec 32} (launched : Launched m eip) (t : Nat) :
    Shows m t (firstView m eip t) := by
  unfold Shows firstView
  split
  · exact .inl ⟨eip, launched.place, rfl⟩
  · next rests => exact .inl ⟨launched.others t rests, rfl⟩

/-- Each thread runs as if it were alone on the processor, in the address space of its process. -/
theorem threads_run_alone (checked : Bool) {m m' : Machine} {eip : BitVec 32} {es : List Event} (launched : Launched m eip)
    (run : exec (machineStep checked) m es = some m') :
    (∀ t, ∃ v, Run (Alone t) (firstView m eip t) es v ∧ Shows m' t v) ∧
      (∀ ip, m'.place = .own ip → Run (Alone m'.sched.currentThread) (firstView m eip m'.sched.currentThread) es
        (.running (m'.context ip))) ∧ OwnSpace m' := by
  have steps := exec_run.mp run
  have alone (t : Nat) : ∃ v, Run (Alone t) (firstView m eip t) es v ∧ Shows m' t v := by
    refine Run.simulation (R := fun m v => Shows m t v) ?_ steps (launched.shows t)
    intro _ _ _ _ shown stepped
    exact Shows.step shown stepped
  refine ⟨alone, fun ip own => ?_, steps.invariant (fun own stepped => own.step stepped) launched.space⟩
  obtain ⟨v, run, shown⟩ := alone m'.sched.currentThread
  rwa [(shown.live rfl).own own] at run

def noRegisters : Registers :=
  { eax := 0, ecx := 0, edx := 0, ebx := 0, ebp := 0, esi := 0, edi := 0, ds := 0x10, es := 0x10, gs := 0x18, fs := 0x28 }

/-- The system thread runs its own code with interrupts on. -/
def bootMachine : Machine where
  sched := bootState oneEvent
  registers := { noRegisters with ebx := 7, esi := 8 }
  eflags := 0x202
  place := .own 0x1000
  stack := []
  cr3 := 0x180000
  exceptionList := 5
  currentException := 6
  oldIrqState := false
  saved := fun _ => { kernelStack := [], exceptionList := 0, currentException := 0, owningProcess := 0 }
  directoryTableBase := fun _ => 0x180000

/-- A new thread takes over when the quantum ends, changes EBX and sleeps; the first one comes out of its interrupt. -/
def twoThreads : List Event :=
  [.create 0 1 0x2000 9 0 noRegisters, .timer noRegisters, .goOn noRegisters, .timer noRegisters, .goOn noRegisters,
    .timer noRegisters, .goOn noRegisters, .own 1 fun c => { c with registers := noRegisters },
    .call 1 (.delay 3) noRegisters, .goOn noRegisters, .goOn noRegisters, .goOn noRegisters, .goOn noRegisters,
    .goOn noRegisters]

theorem bootMachine_launched : Launched bootMachine 0x1000 := ⟨rfl, fun _ _ => rfl, rfl⟩

theorem twoThreads_run_alone : ∃ m', exec (machineStep true) bootMachine twoThreads = some m' ∧
    m'.place = .own 0x1000 ∧ m'.sched.currentThread = 0 ∧
    Run (Alone 0) (firstView bootMachine 0x1000 0) twoThreads (.running (m'.context 0x1000)) := by
  have finishes : ((exec (machineStep true) bootMachine twoThreads).map fun m => (m.place, m.sched.currentThread)) =
      some (.own 0x1000, 0) := by decide
  obtain ⟨m', run, ends⟩ := Option.map_eq_some_iff.mp finishes
  obtain ⟨place, current⟩ := Prod.mk.inj ends
  have alone := (threads_run_alone true bootMachine_launched run).2.1 0x1000 place
  rw [current] at alone
  exact ⟨m', run, place, current, alone⟩

end Gr8os.Ps
