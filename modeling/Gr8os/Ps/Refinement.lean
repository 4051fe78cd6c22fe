import Gr8os.Ps.TimerSafety

/-! The machine carries the scheduler out: what it does to the lists is a run of the scheduler's operations, whatever
is on the stacks meanwhile. -/
namespace Gr8os.Ps

open Runs

/-- What the lists see: a tick of the timer that lets the quantum go on, or an operation. -/
inductive Turn
  | tick
  | op (o : SchedOp)
deriving DecidableEq, Repr

def turnStep (checked : Bool) (s : SchedState) : Turn → Option SchedState
  | .tick => some { s with quantumLeft := s.quantumLeft - 1 }
  | .op o => schedStep checked s o

/-- The turns that an event stands for. -/
def Event.turns (m : Machine) : Event → List Turn
  | .own _ _ | .startRoutineReturns _ => []
  | .call _ o _ => [.op o]
  | .create _ u _ _ _ _ => [.op (.create u)]
  | .timer _ => if m.sched.quantumLeft - 1 ≠ 0 then [.tick] else [.tick, .op .quantumEnd]
  | .goOn _ =>
    match m.place with
    | .afterStartRoutine => [.op (.exit 0)]
    | .exitTail => [.op .exitSwap]
    | _ => []

/-- The turns of a run. -/
def turnsOf (checked : Bool) (m : Machine) (es : List Event) : List Turn := trace (machineStep checked) Event.turns m es

/-- No other thread is terminated, and no quantum ends in the tail of PsExitThread. -/
structure Calm (m : Machine) (e : Event) : Prop where
  releases : e.Releases
  exit : .op .quantumEnd ∈ e.turns m → m.sched.current.exiting = false

/-- Where the lock is free: the way back to the thread's own code, or out of it. -/
inductive Path : Bool → Place → List Cell → Prop
  | own (eip : BitVec 32) (stack : List Cell) : Path false (.own eip) stack
  | starts (stack : List Cell) : Path false .baseThreadStartup stack
  | ends (stack : List Cell) : Path false .afterStartRoutine stack
  | tail (stack : List Cell) : Path true .exitTail stack
  | interrupted {x : Bool} {p : Place} {stack : List Cell} (r : Registers) (eflags : BitVec 32) (back : Path x p stack) :
      Path x .afterDispatcher (kiMakeContextFrame r (.place p :: .word kgdtR0Code :: .word eflags :: stack))
  | swapped {x : Bool} {q : Place} {stack : List Cell} (back : Path x q stack) :
      Path x .afterPsSwapThread (.place q :: stack)
  | quantum {x : Bool} {q : Place} {stack : List Cell} (back : Path x q stack) :
      Path x .afterPsQuantumEnd (.place q :: stack)

/-- A thread that waits has called for itself. -/
def WaitCall : SwapReturn → Prop
  | .quantumEnd | .exitThread | .baseThreadStartup => False
  | _ => True

/-- Where the lock is held: behind PspSwapThread, by the reason why it was called. -/
inductive Locked : SwapReturn → Place → List Cell → Prop
  | quantumEnd {q : Place} {stack : List Cell} (back : Path false q stack) :
      Locked .quantumEnd .afterPspSwapThread (.place q :: stack)
  | exit (stack : List Cell) : Locked .exitThread .afterPspSwapThread stack
  | wait {call : SwapReturn} (waits : WaitCall call) (r : Registers) (eflags old eip : BitVec 32) (stack : List Cell) :
      Locked call (.afterWait call) (waitFrame r eflags (.word old :: .place (.own eip) :: stack))

/-- The stack of a thread that does not run leads where the scheduler takes it to lead. -/
def Parked (stack : List Cell) (r : Thread) : Prop :=
  stack = [] ∨
    (∃ rest, stack = .place .baseThreadStartup :: rest) ∧ r.justInitialized = true ∧
        r.kernelStack = .baseThreadStartup ∨
    (∃ p rest, stack = .place .afterSwapContext :: .place p :: rest ∧ Locked r.kernelStack p rest) ∧
      r.justInitialized = false

/-- The lock is free, and the lists are the scheduler's. -/
structure Free (m : Machine) (s : SchedState) : Prop where
  same : m.sched = s
  path : Path m.sched.current.exiting m.place m.stack

/-- The thread that got the processor has not released the lock yet; when it has, the lists are the scheduler's. -/
structure Held (m : Machine) (s : SchedState) : Prop where
  held : m.sched.schedulerLock = true
  off : interruptFlag m.eflags = false
  resumes : resume m.sched = .ok s
  stays : m.sched.current.exiting = false
  path :
    (∃ p rest, m.place = .afterSwapContext ∧ m.stack = .place p :: rest ∧ Locked m.sched.current.kernelStack p rest) ∨
      Locked m.sched.current.kernelStack m.place m.stack

structure Refines (m : Machine) (s : SchedState) : Prop where
  resting : Resting s
  unlocked : s.schedulerLock = false
  old : m.sched.current.justInitialized = false
  others : ∀ t, t ≠ m.sched.currentThread → Parked (m.saved t).kernelStack (m.sched.thread t)
  here : Free m s ∨ Held m s

section switch

variable {checked : Bool} {scratch : Registers} {m m' c : Machine} {s u : SchedState} {call : SwapReturn} {p : Place}

/-- A resumed thread leaves every thread as it is. -/
theorem resume_thread (resumed : resume s = .ok u) : u.thread = s.thread ∧ u.currentThread = s.currentThread := by
  unfold resume at resumed
  split at resumed <;> first | (cases resumed; exact ⟨rfl, rfl⟩) | cases resumed

/-- A thread that is resumed is no exiting one, and leaves the lock free. -/
theorem resume_free (resumed : resume s = .ok u)
    (started : s.current.kernelStack = .baseThreadStartup → s.schedulerLock = false) : u.schedulerLock = false := by
  unfold resume at resumed
  split at resumed
  · next here =>
    cases resumed
    exact started here
  · cases resumed
    rfl
  · cases resumed
    rfl
  · cases resumed
    rfl
  · cases resumed
  · cases resumed
    rfl

theorem Resting.settled (resting : Resting s) (unlocked : s.schedulerLock = false) :
    ∃ ready wait queue, Settled s ready wait queue := by
  cases resting with
  | free settled _ => exact ⟨_, _, _, settled⟩
  | stuck _ locked => exact absurd (locked.symm.trans unlocked) nofun

/-- The thread that a switch has come to does not exit. -/
theorem swapped_stays {next : Nat} (resting : Resting u) (unlocked : u.schedulerLock = false)
    (resumed : resume (Ps.swapContext s call next) = .ok u) : (Ps.swapContext s call next).current.exiting = false := by
  obtain ⟨ready, wait, queue, settled⟩ := resting.settled unlocked
  obtain ⟨threads, current⟩ := resume_thread resumed
  have here : (Ps.swapContext s call next).currentThread = next := (swapContext_frame s call next).2.2.2
  refine eq_false_of_ne_true fun exits => ?_
  have running : ((Ps.swapContext s call next).thread next).state = .running := by
    rw [swapContext_thread]
    exact if_pos rfl
  unfold SchedState.current at exits
  rw [← current, ← threads] at exits
  have dead := settled.stacksOk.exitingDead _ settled.stacksOk.currentKnown exits
  rw [current, here, threads, running] at dead
  cases dead

theorem resume_error {e : Halt} (stopped : resume s = .error e) : e = .returnFromExit := by
  unfold resume at stopped
  split at stopped <;> cases stopped
  rfl

theorem Locked.started {stack : List Cell} (locked : Locked call p stack) : call ≠ .baseThreadStartup := by
  rintro rfl
  cases locked with
  | wait waits => exact waits

/-- After a switch every thread's stack leads where it led, and that of the thread that gave up the processor where its
call takes it. -/
theorem swapContext_parked (scratch : Registers) {rest : List Cell} (next : Nat)
    (old : c.sched.current.justInitialized = false)
    (top : c.stack = .place .afterSwapContext :: .place p :: rest) (locked : Locked call p rest)
    (others : ∀ t, t ≠ c.sched.currentThread → Parked (c.saved t).kernelStack (c.sched.thread t)) (t : Nat) :
    Parked ((Machine.swapContext scratch c call next).saved t).kernelStack { c.sched.thread t with
      kernelStack := if t = c.sched.currentThread then call else (c.sched.thread t).kernelStack } := by
  obtain ⟨-, saved, -⟩ := @swapContext_swaps scratch c call next
  rw [saved]
  split
  · next here =>
    have stale : (c.sched.thread t).justInitialized = false := here ▸ old
    exact .inr (.inr ⟨⟨p, rest, top, locked⟩, stale⟩)
  · next other => exact others t other

/-- The return into the thread that gets the processor. -/
theorem swap_refines {rest : List Cell} {next : Nat} (held : c.sched.schedulerLock = true)
    (off : interruptFlag c.eflags = false) (old : c.sched.current.justInitialized = false)
    (top : c.stack = .place .afterSwapContext :: .place p :: rest) (locked : Locked call p rest)
    (others : ∀ t, t ≠ c.sched.currentThread → Parked (c.saved t).kernelStack (c.sched.thread t))
    (resumed : resume (Ps.swapContext c.sched call next) = .ok u) (resting : Resting u)
    (returned : (Machine.swapContext scratch c call next).retn = some m') : Refines m' u := by
  obtain ⟨runs, -, stack, -⟩ := @swapContext_swaps scratch c call next
  have parked := swapContext_parked scratch next old top locked others
  have sched := @swapContext_sched scratch c call next
  have thread := swapContext_thread c.sched call next
  have flags := @swapContext_flags scratch c call next
  generalize Machine.swapContext scratch c call next = d at runs stack parked sched flags returned
  unfold Machine.retn at returned
  split at returned
  · next q under here =>
    cases returned
    have old' : d.sched.current.justInitialized = false := by
      rw [SchedState.current, runs, sched, thread]
      exact if_pos rfl
    have others' (t : Nat) (rests : t ≠ d.sched.currentThread) : Parked (d.saved t).kernelStack (d.sched.thread t) := by
      have given := parked t
      unfold Parked at given ⊢
      rw [sched, thread]
      dsimp only
      rw [if_neg (runs ▸ rests)]
      exact given
    have leads : d.sched.current.kernelStack =
        if next = c.sched.currentThread then call else (c.sched.thread next).kernelStack := by
      rw [SchedState.current, runs, sched, thread]
    rw [stack] at here
    rcases parked next with empty | ⟨⟨more, frame⟩, fresh, starts⟩ | ⟨⟨r, more, frame, back⟩, stale⟩
    · rw [empty] at here
      cases here
    · -- a new thread has released the lock
      rw [frame] at here
      cases here
      have same : u = Ps.swapContext c.sched call next := by
        unfold resume at resumed
        rw [← sched, leads.trans starts] at resumed
        cases resumed
        exact sched
      have unlocked : u.schedulerLock = false := same ▸ swapContext_fresh call fresh
      refine ⟨resting, unlocked, old', others', .inl ⟨sched.trans same.symm, ?_⟩⟩
      change Path d.sched.current.exiting .baseThreadStartup under
      rw [sched, swapped_stays resting unlocked resumed]
      exact .starts under
    · -- any other one has got it with the processor
      rw [frame] at here
      cases here
      have unlocked : u.schedulerLock = false := by
        refine resume_free resumed fun started => ?_
        rw [← sched, leads] at started
        exact absurd started back.started
      have exiting := swapped_stays resting unlocked resumed
      refine ⟨resting, unlocked, old', others', .inr ⟨?_, ?_, sched ▸ resumed, sched ▸ exiting, .inl ?_⟩⟩
      · change d.sched.schedulerLock = true
        rw [sched, swapContext_lock stale]
        exact held
      · exact (congrArg interruptFlag (flags stale)).trans off
      · refine ⟨r, more, rfl, rfl, ?_⟩
        change Locked d.sched.current.kernelStack r more
        rw [leads]
        exact back
  · cases returned

/-- A switch of the machine is one of the scheduler. -/
theorem switch_refines {rest : List Cell} {switches : Prop} (held : c.sched.schedulerLock = true)
    (off : interruptFlag c.eflags = false) (old : c.sched.current.justInitialized = false)
    (top : c.stack = .place p :: rest) (locked : Locked call p rest)
    (others : ∀ t, t ≠ c.sched.currentThread → Parked (c.saved t).kernelStack (c.sched.thread t))
    (ends : Ends switches (Ps.pspSwapThread checked c.sched call))
    (swapped : Machine.pspSwapThread checked scratch c call = some m') :
    ∃ u, Ps.pspSwapThread checked c.sched call = .ok u ∧ Refines m' u := by
  unfold Machine.pspSwapThread at swapped
  simp only [Option.bind_eq_bind, Option.bind_eq_some_iff] at swapped
  obtain ⟨v, requeued, w, processed, next, found, returned⟩ := swapped
  have stays := (requeueCurrent_stays (ok_of_toOption requeued)).trans (pspProcessWaitList_stays (ok_of_toOption processed))
  have code : Ps.pspSwapThread checked c.sched call = resume (Ps.swapContext w call next) := by
    unfold Ps.pspSwapThread
    rw [ok_of_toOption requeued, ok_bind, ok_of_toOption processed, ok_bind, ok_of_toOption found, ok_bind]
  rw [code] at ends ⊢
  obtain ⟨u, resumed, resting, -⟩ : ∃ u, resume (Ps.swapContext w call next) = .ok u ∧ Resting u ∧
      (switches → RunsAlone u) := by
    rcases ends with good | stopped | stopped
    · exact good
    · cases resume_error stopped
    · cases resume_error stopped
  refine ⟨u, resumed, swap_refines (c := Machine.push { c with sched := w } (.place .afterSwapContext))
    (stays.lock.trans held) off ?_ (congrArg (List.cons _) top) locked (fun t rests => ?_) resumed resting returned⟩
  · change (w.thread w.currentThread).justInitialized = false
    rw [stays.fresh, stays.current]
    exact old
  · have given := others t fun here => rests (here.trans stays.current.symm)
    change Parked (c.saved t).kernelStack (w.thread t)
    unfold Parked at given ⊢
    rwa [stays.kernelStacks, stays.fresh]

end switch

section steps

variable {checked : Bool} {scratch : Registers} {m m' : Machine} {s u : SchedState}
variable {x : Bool} {p : Place} {stack : List Cell}

theorem Path.outside (path : Path x p stack) : ¬Releases p ∧ p ≠ .afterSwapContext := by
  cases path <;> exact ⟨id, nofun⟩

theorem Path.runs {eip : BitVec 32} (path : Path x (.own eip) stack) : x = false := by
  cases path
  rfl

theorem Path.starting (path : Path x .baseThreadStartup stack) : x = false := by
  cases path
  rfl

theorem Path.ending (path : Path x .afterStartRoutine stack) : x = false := by
  cases path
  rfl

theorem Path.leaving (path : Path x .exitTail stack) : x = true := by
  cases path
  rfl

theorem Path.after (path : Path x p stack) (inside : p = .afterPsSwapThread ∨ p = .afterPsQuantumEnd) :
    ∃ q rest, stack = .place q :: rest ∧ Path x q rest := by
  cases path with
  | swapped back => exact ⟨_, _, rfl, back⟩
  | quantum back => exact ⟨_, _, rfl, back⟩
  | own | starts | ends | tail | interrupted => rcases inside with here | here <;> cases here

theorem Locked.inside {call : SwapReturn} (locked : Locked call p stack) : Releases p := by
  cases locked <;> trivial

/-- The lock is held on the way from a switch to its release only. -/
theorem Held.inside (held : Held m s) : m.place = .afterSwapContext ∨ Releases m.place := by
  rcases held.path with ⟨_, _, here, _⟩ | locked
  · exact .inl here
  · exact .inr locked.inside

theorem Refines.free (refines : Refines m s) (outside : ¬Releases m.place) (away : m.place ≠ .afterSwapContext) :
    Free m s := by
  rcases refines.here with free | held
  · exact free
  · rcases held.inside with here | inside
    · exact absurd here away
    · exact absurd inside outside

theorem Refines.own {eip : BitVec 32} (refines : Refines m s) (here : m.place = .own eip) : Free m s := by
  refine refines.free ?_ ?_
  · rw [here]
    exact id
  · rw [here]
    exact nofun

theorem Refines.held (refines : Refines m s) (inside : m.place = .afterSwapContext ∨ Releases m.place) : Held m s := by
  rcases refines.here with free | held
  · obtain ⟨outside, away⟩ := free.path.outside
    rcases inside with here | inside
    · exact absurd here away
    · exact absurd inside outside
  · exact held

/-- The lists and the threads that do not run stay as they are. -/
theorem Refines.kept (refines : Refines m s) (same : SameThread m m') (stays : Stays m.sched m'.sched)
    (resting : Resting u) (unlocked : u.schedulerLock = false) (here : Free m' u ∨ Held m' u) : Refines m' u := by
  refine ⟨resting, unlocked, ?_, fun t rests => ?_, here⟩
  · unfold SchedState.current
    rw [stays.fresh, stays.current]
    exact refines.old
  · have given := refines.others t fun here => rests (here.trans stays.current.symm)
    unfold Parked at given ⊢
    rwa [same.saved, stays.kernelStacks, stays.fresh]

theorem schedStep_ok {op : SchedOp} (enabled : Enabled s op) (performed : perform checked s op = .ok u) :
    schedStep checked s op = some u := by
  unfold schedStep
  rw [if_pos enabled, performed]
  rfl

theorem exec_op {op : SchedOp} (stepped : schedStep checked s op = some u) :
    exec (turnStep checked) s [.op op] = some u := by
  rw [exec, turnStep, stepped]
  rfl

/-- The scheduler ends an operation as it says, or it stops the machine. -/
theorem Resting.ends (checked : Bool) {op : SchedOp} (resting : Resting s) (unlocked : s.schedulerLock = false)
    (enabled : Enabled s op)
    (calm : ExitUninterrupted s op) : Ends (Switches s op) (perform checked s op) := by
  obtain ⟨ready, wait, queue, settled⟩ := resting.settled unlocked
  exact perform_free checked op settled unlocked enabled calm

/-- A call that gives the processor back at once. -/
theorem Refines.callBack {op : SchedOp} {eip : BitVec 32} (refines : Refines m s) (own : m.place = .own eip)
    (enabled : Enabled m.sched op) (stays : ¬Switches m.sched op)
    (called : m.callBack checked op scratch = some m') (leaves : LeavesThreads op) :
    ∃ u, schedStep checked s op = some u ∧ Refines m' u := by
  obtain ⟨rfl, path⟩ := refines.own own
  have same := callBack_same stays called
  unfold Machine.callBack at called
  simp only [Option.bind_eq_bind, Option.bind_eq_some_iff, Option.pure_def, Option.some.injEq] at called
  obtain ⟨u, performed, rfl⟩ := called
  have kept := perform_stays stays leaves (ok_of_toOption performed)
  have stepped := schedStep_ok enabled (ok_of_toOption performed)
  have calm : ExitUninterrupted m.sched op := by
    rintro rfl
    exact absurd trivial stays
  have resting := (resting_step checked op refines.resting calm stepped).1
  refine ⟨u, stepped, refines.kept same kept resting (kept.lock.trans refines.unlocked) (.inl ⟨rfl, ?_⟩)⟩
  change Path (u.thread u.currentThread).exiting m.place m.stack
  rw [kept.exiting, kept.current]
  exact path

/-- A call that gives up the processor. -/
theorem Refines.startWait {op : SchedOp} {call : SwapReturn} {sleep : SchedState → SchedState} {eip : BitVec 32}
    (refines : Refines m s) (own : m.place = .own eip) (enabled : Enabled m.sched op)
    (calm : ExitUninterrupted m.sched op) (sleeps : ∀ s, Stays s (sleep s))
    (code : m.sched.schedulerLock = false →
      perform checked m.sched op = Ps.pspSwapThread checked (sleep { m.sched with schedulerLock := true }) call)
    (started : Machine.startWait checked scratch m call sleep = some m') (waits : WaitCall call) :
    ∃ u, schedStep checked s op = some u ∧ Refines m' u := by
  obtain ⟨rfl, path⟩ := refines.own own
  have ends := refines.resting.ends checked refines.unlocked enabled calm
  rw [code refines.unlocked] at ends
  unfold Machine.startWait Machine.lock at started
  rw [lock_ok refines.unlocked] at started
  simp only [Option.bind_eq_bind, Except.toOption, Option.bind_some, Option.pure_def] at started
  have slept := sleeps { m.sched with schedulerLock := true }
  have swapped := switch_refines (c := Machine.push { m with
      sched := sleep { m.sched with schedulerLock := true }
      oldIrqState := interruptFlag m.eflags
      eflags := cli m.eflags
      stack := waitFrame m.registers (cli m.eflags)
        (.word (if interruptFlag m.eflags then 1 else 0) :: .place m.place :: m.stack) } (.place (.afterWait call)))
    (slept.lock.trans rfl) (interruptFlag_cli m.eflags) ?_ rfl ?_ ?_ ends started
  · obtain ⟨u, performed, after⟩ := swapped
    exact ⟨u, schedStep_ok enabled ((code refines.unlocked).trans performed), after⟩
  · change ((sleep _).thread (sleep _).currentThread).justInitialized = false
    rw [slept.fresh, slept.current]
    exact refines.old
  · rw [own]
    exact .wait waits m.registers _ _ eip m.stack
  · intro t rests
    have given := refines.others t fun here => rests (here.trans slept.current.symm)
    change Parked (m.saved t).kernelStack ((sleep _).thread t)
    unfold Parked at given ⊢
    rw [slept.kernelStacks, slept.fresh]
    exact given

theorem Refines.psExitThread {code : BitVec 32} (refines : Refines m s) (free : Free m s)
    (stays : m.sched.current.exiting = false) (exited : m.psExitThread code = some m') :
    ∃ u, schedStep checked s (.exit code) = some u ∧ Refines m' u := by
  obtain ⟨rfl, -⟩ := free
  obtain ⟨tail, undisturbed⟩ := Machine.psExitThread_exits exited
  unfold Machine.psExitThread at exited
  simp only [Option.bind_eq_bind, Option.bind_eq_some_iff, Option.pure_def, Option.some.injEq] at exited
  obtain ⟨u, done, rfl⟩ := exited
  have stepped : schedStep checked m.sched (.exit code) = some u := schedStep_ok stays (ok_of_toOption done)
  obtain ⟨current, lock, exiting, kernelStacks, fresh⟩ := psExitThread_leaves (ok_of_toOption done)
  have resting := (resting_step checked (.exit code) refines.resting (fun quantum => by cases quantum) stepped).1
  refine ⟨u, stepped, resting, lock.trans refines.unlocked, ?_, fun t rests => ?_, .inl ⟨rfl, ?_⟩⟩
  · change (u.thread u.currentThread).justInitialized = false
    rw [fresh, current]
    exact refines.old
  · have given := refines.others t fun here => rests (here.trans current.symm)
    change Parked (m.saved t).kernelStack (u.thread t)
    unfold Parked at given ⊢
    rwa [kernelStacks, fresh]
  · change Path u.current.exiting .exitTail m.stack
    rw [exiting]
    exact .tail m.stack

theorem Refines.create {w : Nat} {a b : BitVec 32} {q : Nat} {eip : BitVec 32} (refines : Refines m s)
    (own : m.place = .own eip) (other : w ≠ m.sched.currentThread) (enabled : Enabled m.sched (.create w))
    (created : m.pspCreateThread checked w a b q scratch = some m') :
    ∃ u, schedStep checked s (.create w) = some u ∧ Refines m' u := by
  obtain ⟨rfl, path⟩ := refines.own own
  unfold Machine.pspCreateThread Machine.callBack at created
  simp only [Option.bind_eq_bind, Option.bind_eq_some_iff, Option.pure_def, Option.some.injEq] at created
  obtain ⟨_, ⟨u, performed, rfl⟩, rfl⟩ := created
  have stepped := schedStep_ok enabled (ok_of_toOption performed)
  have current := pspCreateThread_current (ok_of_toOption performed)
  obtain ⟨free, fresh, starts, same⟩ := pspCreateThread_fresh (ok_of_toOption performed)
  have resting := (resting_step checked (.create w) refines.resting (fun quantum => by cases quantum) stepped).1
  have runs : u.current = m.sched.current := by
    unfold SchedState.current
    rw [current]
    exact same _ other.symm
  refine ⟨u, stepped, resting, free, ?_, fun t rests => ?_, .inl ⟨rfl, ?_⟩⟩
  · exact (congrArg Thread.justInitialized runs).trans refines.old
  · change Parked (Machine.saved (Machine.save _ w _) t).kernelStack (u.thread t)
    by_cases new : t = w
    · subst new
      rw [save_self]
      exact .inr (.inl ⟨⟨_, rfl⟩, fresh, starts⟩)
    · have given := refines.others t fun here => rests (here.trans current.symm)
      rw [← same t new] at given
      exact (congrArg (fun r : Saved => Parked r.kernelStack _) (if_neg new)).mpr given
  · change Path u.current.exiting m.place m.stack
    rw [runs]
    exact path

theorem Refines.call {op : SchedOp} {eip : BitVec 32} (refines : Refines m s) (own : m.place = .own eip)
    (enabled : Enabled m.sched op) (released : ¬KeepsLock op) (called : m.call checked op scratch = some m') :
    ∃ u, schedStep checked s op = some u ∧ Refines m' u := by
  unfold Machine.call at called
  cases op with
  | delay n =>
    refine refines.startWait own enabled (fun quantum => ?_) (fun _ => delayCurrent_stays) (fun unlocked => ?_) called
      trivial
    · cases quantum
    change psDelayThreadExecution checked m.sched n = _
    unfold psDelayThreadExecution
    rw [lock_ok unlocked, ok_bind]
  | wait o =>
    dsimp only at called
    split at called
    · next signaled =>
      refine refines.callBack own enabled (fun switches => ?_) called trivial
      rw [Switches, signaled] at switches
      cases switches
    · next unsignaled =>
      refine refines.startWait own enabled (fun quantum => ?_) (fun _ => blockOn_stays) (fun unlocked => ?_) called trivial
      · cases quantum
      change keWaitForSingleObject checked m.sched o = _
      unfold keWaitForSingleObject
      rw [lock_ok unlocked, ok_bind, if_neg unsignaled]
  | acquire x =>
    dsimp only at called
    split at called
    · next passes =>
      refine refines.callBack own enabled (fun switches => ?_) called trivial
      rcases passes with first | signaled
      · exact switches.1 first
      · have impossible := signaled.symm.trans switches.2
        cases impossible
    · next waits =>
      refine refines.startWait own enabled (fun quantum => ?_) (fun _ => blockOn_stays) (fun unlocked => ?_) called trivial
      · cases quantum
      change exAcquireMutex checked m.sched x = _
      unfold exAcquireMutex
      dsimp only
      rw [if_neg fun first => waits (.inl first), lock_ok unlocked, ok_bind, if_neg fun signaled => waits (.inr signaled)]
  | exit code => exact refines.psExitThread (refines.own own) enabled called
  | setEvent o inc => exact refines.callBack own enabled id called trivial
  | terminate w code => exact absurd trivial released
  | release x => exact refines.callBack own enabled id called trivial
  | create w => cases called
  | exitSwap => cases called
  | quantumEnd => cases called

/-- A tick is nothing to the lists. -/
theorem Resting.tick (resting : Resting s) (n : BitVec 16) : Resting { s with quantumLeft := n } := by
  cases resting with
  | free settled unlocked =>
    refine .free ⟨settled.lists.congr rfl rfl fun _ => rfl, settled.waiters.congr rfl fun _ _ _ => ⟨rfl, rfl⟩, ?_,
      settled.running, settled.currentPlace⟩ unlocked
    exact ⟨settled.stacksOk.exitingDead, settled.stacksOk.fresh, settled.stacksOk.exited, settled.stacksOk.currentKnown⟩
  | stuck lists locked => exact .stuck (lists.congr rfl rfl fun _ => rfl) locked

theorem Refines.psSwapThread (op : SchedOp) {call : SwapReturn} {c : Machine} {v : SchedState} (refines : Refines m s)
    (swapped : Machine.psSwapThread checked scratch c call = some m') (stays : Stays m.sched c.sched)
    (saved : c.saved = m.saved) (free : m.sched.schedulerLock = false) (locked : Locked call .afterPspSwapThread c.stack)
    (resting : Resting v) (unlocked : v.schedulerLock = false) (enabled : Enabled v op) (calm : ExitUninterrupted v op)
    (code : perform checked v op = Ps.psSwapThread checked c.sched call) :
    ∃ u, schedStep checked v op = some u ∧ Refines m' u := by
  have ends := resting.ends checked unlocked enabled calm
  have open' : c.sched.schedulerLock = false := stays.lock.trans free
  have inside : Ps.psSwapThread checked c.sched call =
      Ps.pspSwapThread checked { c.sched with schedulerLock := true } call := by
    unfold Ps.psSwapThread
    rw [lock_ok open', ok_bind]
  rw [code, inside] at ends
  unfold Machine.psSwapThread Machine.lock at swapped
  rw [lock_ok open'] at swapped
  simp only [Option.bind_eq_bind, Except.toOption, Option.bind_some, Option.pure_def] at swapped
  have after := switch_refines (c := Machine.push { c with
      sched := { c.sched with schedulerLock := true }
      oldIrqState := interruptFlag c.eflags
      eflags := cli c.eflags } (.place .afterPspSwapThread)) rfl (interruptFlag_cli c.eflags) ?_ rfl locked ?_ ends swapped
  · obtain ⟨u, performed, after⟩ := after
    exact ⟨u, schedStep_ok enabled ((code.trans inside).trans performed), after⟩
  · change (c.sched.thread c.sched.currentThread).justInitialized = false
    rw [stays.fresh, stays.current]
    exact refines.old
  · intro t rests
    have given := refines.others t fun here => rests (here.trans stays.current.symm)
    change Parked (c.saved t).kernelStack (c.sched.thread t)
    unfold Parked at given ⊢
    rwa [saved, stays.kernelStacks, stays.fresh]

theorem Refines.timer (refines : Refines m s) (calm : Calm m (.timer scratch)) (on : interruptFlag m.eflags = true)
    (handled : Machine.irq0Handler checked scratch m = some m') :
    ∃ u, exec (turnStep checked) s (Event.turns m (.timer scratch)) = some u ∧ Refines m' u := by
  rcases refines.here with ⟨rfl, path⟩ | held
  · have exits := calm.exit
    have ticked := refines.resting.tick (m.sched.quantumLeft - 1)
    unfold Machine.irq0Handler Machine.pspSchedulerTimerInterruptDispatcher at handled
    unfold Event.turns at exits ⊢
    dsimp only at handled exits ⊢
    split at handled
    · next left =>
      change m.sched.quantumLeft - 1 ≠ 0 at left
      unfold Machine.retn Machine.push at handled
      cases handled
      rw [if_pos left]
      refine ⟨_, rfl, refines.kept ⟨rfl, rfl, rfl, rfl⟩ ⟨rfl, rfl, fun _ => rfl, fun _ => rfl, fun _ => rfl⟩ ticked
        refines.unlocked (.inl ⟨rfl, ?_⟩)⟩
      exact .interrupted m.registers m.eflags path
    · next none =>
      change ¬m.sched.quantumLeft - 1 ≠ 0 at none
      rw [if_neg none] at exits ⊢
      have stays : m.sched.current.exiting = false := exits (.tail _ (.head _))
      have ready : Stays m.sched (SchedState.setThread { m.sched with quantumLeft := m.sched.quantumLeft - 1 }
          m.sched.currentThread fun r => { r with state := .ready }) := by
        refine Stays.trans (u := { m.sched with quantumLeft := m.sched.quantumLeft - 1 })
          ⟨rfl, rfl, fun _ => rfl, fun _ => rfl, fun _ => rfl⟩ ?_
        exact stays_setThread (fun _ => rfl) (fun _ => rfl) fun _ => rfl
      have frame : Path false .afterDispatcher (kiMakeContextFrame m.registers
          (.place m.place :: .word kgdtR0Code :: .word m.eflags :: m.stack)) :=
        .interrupted m.registers m.eflags (stays ▸ path)
      unfold Machine.psQuantumEnd at handled
      obtain ⟨u, stepped, after⟩ := refines.psSwapThread .quantumEnd
        (v := { m.sched with quantumLeft := m.sched.quantumLeft - 1 }) handled ready rfl refines.unlocked
        (.quantumEnd (.swapped (.quantum frame))) ticked refines.unlocked trivial (fun _ => stays) rfl
      exact ⟨u, exec_op stepped, after⟩
  · exact absurd (held.off.symm.trans on) nofun

/-- A return on the way out of the kernel. -/
theorem Refines.passes {q : Place} {rest : List Cell} (refines : Refines m s) (free : Free m s)
    (top : m.stack = .place q :: rest) (back : Path m.sched.current.exiting q rest) (returned : m.retn = some m') :
    Refines m' s := by
  obtain ⟨rfl, -⟩ := free
  unfold Machine.retn at returned
  rw [top] at returned
  cases returned
  exact refines.kept ⟨rfl, rfl, rfl, rfl⟩ (.refl _) refines.resting refines.unlocked (.inl ⟨rfl, back⟩)

/-- The thread that got the processor releases the lock: the lists are the scheduler's from then on. -/
theorem Refines.release {q : Place} {rest : List Cell} (refines : Refines m s) (held : Held m s) {c : Machine}
    (same : SameThread m m') (taken : Stays m.sched c.sched) (lists : m'.sched = pspUnlockSchedulerDatabase c.sched)
    (resumes : resume m.sched = .ok (pspUnlockSchedulerDatabase c.sched)) (place : m'.place = q) (stack : m'.stack = rest)
    (back : Path false q rest) : Refines m' s := by
  have final : m'.sched = s := by
    rw [lists]
    exact Except.ok.inj (resumes.symm.trans held.resumes)
  have kernelStacks (t : Nat) : (m'.sched.thread t).kernelStack = (m.sched.thread t).kernelStack := by
    rw [lists]
    exact taken.kernelStacks t
  have fresh (t : Nat) : (m'.sched.thread t).justInitialized = (m.sched.thread t).justInitialized := by
    rw [lists]
    exact taken.fresh t
  have exiting : m'.sched.current.exiting = false := by
    rw [lists]
    change (c.sched.thread c.sched.currentThread).exiting = false
    rw [taken.exiting, taken.current]
    exact held.stays
  refine ⟨refines.resting, refines.unlocked, ?_, fun t rests => ?_, .inl ⟨final, ?_⟩⟩
  · unfold SchedState.current
    rw [fresh, same.current]
    exact refines.old
  · have given := refines.others t fun here => rests (here.trans same.current.symm)
    unfold Parked at given ⊢
    rwa [same.saved, kernelStacks, fresh]
  · rw [exiting, place, stack]
    exact back

theorem Refines.afterSwapContext (refines : Refines m s) (here : m.place = .afterSwapContext)
    (returned : m.retn = some m') : Refines m' s := by
  have held := refines.held (.inl here)
  rcases held.path with ⟨p, rest, -, top, locked⟩ | locked
  · unfold Machine.retn at returned
    rw [top] at returned
    cases returned
    refine refines.kept ⟨rfl, rfl, rfl, rfl⟩ (.refl _) refines.resting refines.unlocked (.inr ?_)
    exact ⟨held.held, held.off, held.resumes, held.stays, .inr locked⟩
  · have inside := locked.inside
    rw [here] at inside
    exact absurd inside id

theorem Refines.afterPspSwapThread (refines : Refines m s) (here : m.place = .afterPspSwapThread)
    (returned : m.unlock.retn = some m') : Refines m' s := by
  have held := refines.held (.inr (by rw [here]; trivial))
  rcases held.path with ⟨_, _, there, _⟩ | locked
  · cases here.symm.trans there
  · have resumes := held.resumes
    unfold resume at resumes
    rw [here] at locked
    generalize leads : m.sched.current.kernelStack = call at locked resumes
    generalize frame : m.stack = stack at locked
    cases locked with
    | quantumEnd back =>
      unfold Machine.retn at returned
      have top : m.unlock.stack = _ := frame
      rw [top] at returned
      cases returned
      refine refines.release (c := m) held ⟨rfl, rfl, rfl, rfl⟩ (.refl _) rfl ?_ rfl rfl back
      unfold resume
      rw [leads]
    | exit => cases resumes

theorem Refines.finishWait {call : SwapReturn} (refines : Refines m s) (here : m.place = .afterWait call)
    (finished : m.finishWait call = some m') : Refines m' s := by
  have held := refines.held (.inr (by rw [here]; trivial))
  have same := finishWait_same finished
  rcases held.path with ⟨_, _, there, _⟩ | locked
  · cases here.symm.trans there
  · rw [here] at locked
    generalize leads : m.sched.current.kernelStack = reason at locked
    generalize frame : m.stack = stack at locked
    cases locked with
    | wait waits r eflags old eip stack =>
      unfold Machine.finishWait at finished
      rw [frame, popWaitFrame_made] at finished
      cases finished
      refine refines.release (c := { m with sched := takeMutex m.sched call }) held same takeMutex_stays rfl ?_ rfl rfl
        (.own eip stack)
      unfold resume
      rw [leads]
      cases call with
      | baseThreadStartup => exact absurd waits id
      | exitThread => exact absurd waits id
      | quantumEnd => exact absurd waits id
      | acquireMutex x => rfl
      | waitForSingleObject => rfl
      | delayThreadExecution => rfl

theorem Refines.endOfInterrupt (refines : Refines m s) (free : Free m s) (here : m.place = .afterDispatcher)
    (ended : m.endOfInterrupt = some m') : Refines m' s := by
  obtain ⟨rfl, path⟩ := free
  rw [here] at path
  generalize exits : m.sched.current.exiting = x at path
  generalize frame : m.stack = stack at path
  cases path with
  | interrupted r eflags back =>
    unfold Machine.endOfInterrupt at ended
    rw [frame, kiRestoreContextFrame_made] at ended
    cases ended
    exact refines.kept ⟨rfl, rfl, rfl, rfl⟩ (.refl _) refines.resting refines.unlocked (.inl ⟨rfl, exits ▸ back⟩)

theorem Refines.goOn (refines : Refines m s) (went : Machine.goOn checked scratch m = some m') :
    ∃ u, exec (turnStep checked) s (Event.turns m (.goOn scratch)) = some u ∧ Refines m' u := by
  unfold Machine.goOn at went
  unfold Event.turns
  cases here : m.place with
  | own eip =>
    rw [here] at went
    cases went
  | baseThreadStartup =>
    rw [here] at went
    obtain ⟨rfl, path⟩ := refines.free (by rw [here]; exact id) (by rw [here]; exact nofun)
    have stays : m.sched.current.exiting = false := by
      rw [here] at path
      exact path.starting
    dsimp only at went
    split at went
    · next routine stack _ =>
      cases went
      refine ⟨_, rfl, refines.kept ⟨rfl, rfl, rfl, rfl⟩ (.refl _) refines.resting refines.unlocked (.inl ⟨rfl, ?_⟩)⟩
      change Path m.sched.current.exiting (.own routine) (.place .afterStartRoutine :: stack)
      rw [stays]
      exact .own _ _
    · cases went
  | afterStartRoutine =>
    rw [here] at went
    have free := refines.free (by rw [here]; exact id) (by rw [here]; exact nofun)
    have path := free.path
    rw [here] at path
    obtain ⟨u, stepped, after⟩ := refines.psExitThread free path.ending went
    exact ⟨u, exec_op stepped, after⟩
  | afterSwapContext =>
    rw [here] at went
    exact ⟨s, rfl, refines.afterSwapContext here went⟩
  | afterPspSwapThread =>
    rw [here] at went
    exact ⟨s, rfl, refines.afterPspSwapThread here went⟩
  | afterPsSwapThread =>
    rw [here] at went
    have free := refines.free (by rw [here]; exact id) (by rw [here]; exact nofun)
    have path := free.path
    rw [here] at path
    obtain ⟨q, rest, top, back⟩ := path.after (.inl rfl)
    exact ⟨s, rfl, refines.passes free top back went⟩
  | afterPsQuantumEnd =>
    rw [here] at went
    have free := refines.free (by rw [here]; exact id) (by rw [here]; exact nofun)
    have path := free.path
    rw [here] at path
    obtain ⟨q, rest, top, back⟩ := path.after (.inr rfl)
    exact ⟨s, rfl, refines.passes free top back went⟩
  | afterDispatcher =>
    rw [here] at went
    have free := refines.free (by rw [here]; exact id) (by rw [here]; exact nofun)
    exact ⟨s, rfl, refines.endOfInterrupt free here went⟩
  | afterWait call =>
    rw [here] at went
    exact ⟨s, rfl, refines.finishWait here went⟩
  | exitTail =>
    rw [here] at went
    obtain ⟨rfl, path⟩ := refines.free (by rw [here]; exact id) (by rw [here]; exact nofun)
    rw [here] at path
    obtain ⟨u, stepped, after⟩ := refines.psSwapThread .exitSwap (v := m.sched) went (.refl _) rfl refines.unlocked
      (.exit _) refines.resting refines.unlocked path.leaving (fun quantum => by cases quantum) rfl
    exact ⟨u, exec_op stepped, after⟩
  | afterExitSwap =>
    rw [here] at went
    cases went

theorem Refines.step {e : Event} (refines : Refines m s) (calm : Calm m e) (stepped : machineStep checked m e = some m') :
    ∃ u, exec (turnStep checked) s (e.turns m) = some u ∧ Refines m' u := by
  unfold machineStep at stepped
  cases e with
  | own t f =>
    dsimp only at stepped
    split at stepped
    · next eip here =>
      split at stepped
      · cases stepped
        obtain ⟨rfl, path⟩ := refines.own here
        have stays : m.sched.current.exiting = false := by
          rw [here] at path
          exact path.runs
        refine ⟨_, rfl, refines.kept ⟨rfl, rfl, rfl, rfl⟩ (.refl _) refines.resting refines.unlocked (.inl ⟨rfl, ?_⟩)⟩
        change Path m.sched.current.exiting (.own _) _
        rw [stays]
        exact .own _ _
      · cases stepped
    · cases stepped
  | call t op scratch =>
    dsimp only at stepped
    split at stepped
    · next eip here =>
      split at stepped
      · next enabled =>
        obtain ⟨u, turned, after⟩ := refines.call here enabled.2 calm.releases stepped
        exact ⟨u, exec_op turned, after⟩
      · cases stepped
    · cases stepped
  | create t w a b q scratch =>
    dsimp only at stepped
    split at stepped
    · next eip here =>
      split at stepped
      · next enabled =>
        obtain ⟨u, turned, after⟩ := refines.create here (enabled.1 ▸ enabled.2.1) enabled.2.2 stepped
        exact ⟨u, exec_op turned, after⟩
      · cases stepped
    · cases stepped
  | startRoutineReturns t =>
    dsimp only at stepped
    split at stepped
    · next eip stack here top =>
      split at stepped
      · have free := refines.own here
        have path := free.path
        rw [here] at path
        refine ⟨s, rfl, refines.passes free top ?_ stepped⟩
        rw [path.runs]
        exact .ends stack
      · cases stepped
    · cases stepped
  | timer scratch =>
    dsimp only at stepped
    split at stepped
    · next on => exact refines.timer calm on stepped
    · cases stepped
  | goOn scratch => exact refines.goOn stepped

end steps

/-- Whatever the timer, the threads and the switches do on the way, the lists of a machine in a thread's code are the
scheduler's after the operations that the machine has carried out. -/
theorem machine_refines_scheduler (checked : Bool) {m m' : Machine} {eip : BitVec 32} {systemThread : Nat} {es : List Event}
    (launched : Launched m eip) (booted : Booted m.sched systemThread) (old : m.sched.current.justInitialized = false)
    (run : Run (Guarded Calm fun m e m' => machineStep checked m e = some m') m es m') :
    ∃ s, exec (turnStep checked) m.sched (turnsOf checked m es) = some s ∧ (∃ ready wait, Scheduled s ready wait) ∧
      (m'.sched.schedulerLock = false → m'.sched = s) ∧ (m'.sched.schedulerLock = true → resume m'.sched = .ok s) := by
  have stays : m.sched.current.exiting = false := by
    unfold SchedState.current
    rw [booted.current]
    exact booted.stays
  have first : Refines m m.sched := by
    refine ⟨.free booted.settled booted.unlocked, booted.unlocked, old, fun t rests => .inl (launched.others t rests),
      .inl ⟨rfl, ?_⟩⟩
    rw [stays, launched.place]
    exact .own eip m.stack
  obtain ⟨s, turns, last⟩ :=
    exec_simulation (R := Refines) (fun refines calm stepped => refines.step calm stepped) run first
  refine ⟨s, turns, last.resting.scheduled, fun free => ?_, fun held => ?_⟩
  · rcases last.here with here | here
    · exact here.same
    · exact absurd (here.held.symm.trans free) nofun
  · rcases last.here with here | here
    · have unlocked : m'.sched.schedulerLock = false := (congrArg _ here.same).trans last.unlocked
      exact absurd (held.symm.trans unlocked) nofun
    · exact here.resumes

instance : (op : SchedOp) → Decidable (KeepsLock op)
  | .terminate _ _ => isTrue trivial
  | .create _ | .wait _ | .setEvent _ _ | .delay _ | .exit _ | .exitSwap | .quantumEnd | .acquire _ | .release _ => isFalse id

instance : (e : Event) → Decidable e.Releases
  | .call _ op _ => inferInstanceAs (Decidable ¬KeepsLock op)
  | .own _ _ | .create _ _ _ _ _ _ | .startRoutineReturns _ | .timer _ | .goOn _ => isTrue trivial

instance (m : Machine) (e : Event) : Decidable (Calm m e) :=
  decidable_of_iff (e.Releases ∧ (.op .quantumEnd ∈ e.turns m → m.sched.current.exiting = false))
    ⟨fun h => ⟨h.1, h.2⟩, fun h => ⟨h.releases, h.exit⟩⟩

theorem twoThreads_refine : ∃ m' s, exec (guarded Calm (machineStep true)) bootMachine twoThreads = some m' ∧
    turnsOf true bootMachine twoThreads = [.op (.create 1), .tick, .tick, .tick, .op .quantumEnd, .op (.delay 3)] ∧
    exec (turnStep true) bootMachine.sched (turnsOf true bootMachine twoThreads) = some s ∧ m'.sched = s := by
  have finishes : ((exec (guarded Calm (machineStep true)) bootMachine twoThreads).map fun m => m.sched.schedulerLock) =
      some false := by decide
  obtain ⟨m', run, free⟩ := Option.map_eq_some_iff.mp finishes
  obtain ⟨s, turns, -, same, -⟩ :=
    machine_refines_scheduler true bootMachine_launched (bootState_booted oneEvent) rfl (guarded_run run)
  exact ⟨m', s, run, by decide, turns, same free⟩

end Gr8os.Ps
