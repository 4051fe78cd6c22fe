import Gr8os.Ps.ThreadRuns

/-! The timer never interrupts the holder of the scheduler's lock: the lock is given from thread to thread across a switch,
and interrupts stay off until it is released. -/
namespace Gr8os.Ps

open Runs

/-- The places behind PspSwapThread, where a thread releases the lock that another one has taken. -/
def Releases : Place → Prop
  | .afterPspSwapThread | .afterWait _ => True
  | _ => False

/-- A thread that does not run starts with a release of the lock, or releases it when it comes back. -/
def GivesBack (stack : List Cell) (fresh : Bool) : Prop :=
  stack = [] ∨ (∃ rest, stack = .place .baseThreadStartup :: rest) ∧ fresh = true ∨
    ∃ p rest, stack = .place .afterSwapContext :: .place p :: rest ∧ Releases p

/-- The lock is held only on the way from a switch to its release, with interrupts off. -/
structure LockSafe (m : Machine) : Prop where
  off : m.sched.schedulerLock = true → interruptFlag m.eflags = false
  inside : m.sched.schedulerLock = true →
    Releases m.place ∨ m.place = .afterSwapContext ∧ ∃ p rest, m.stack = .place p :: rest ∧ Releases p
  others : ∀ t, t ≠ m.sched.currentThread → GivesBack (m.saved t).kernelStack (m.sched.thread t).justInitialized

section safety

variable {checked : Bool} {scratch : Registers} {m m' c : Machine} {call : SwapReturn} {p : Place} {t : Nat}

theorem LockSafe.free (safe : LockSafe m) (same : SameThread m m')
    (fresh : ∀ t, (m'.sched.thread t).justInitialized = (m.sched.thread t).justInitialized)
    (free : m'.sched.schedulerLock = false) : LockSafe m' := by
  refine ⟨fun held => ?_, fun held => ?_, fun t rests => ?_⟩
  · exact absurd (held.symm.trans free) nofun
  · exact absurd (held.symm.trans free) nofun
  · rw [same.saved, fresh]
    exact safe.others t (same.current ▸ rests)

/-- Anywhere else the lock is free. -/
theorem LockSafe.unlocked (safe : LockSafe m) (outside : ¬Releases m.place) (away : m.place ≠ .afterSwapContext) :
    m.sched.schedulerLock = false := by
  refine eq_false_of_ne_true fun held => ?_
  rcases safe.inside held with inside | ⟨here, _⟩
  · exact outside inside
  · exact away here

theorem swapContext_lock {s : SchedState} {next : Nat} (stale : (s.thread next).justInitialized = false) :
    (Ps.swapContext s call next).schedulerLock = s.schedulerLock := by
  unfold Ps.swapContext
  dsimp only
  split
  · by_cases self : next = s.currentThread <;> simp_all
  · rfl

theorem swapContext_sched (next : Nat) : (Machine.swapContext scratch c call next).sched = Ps.swapContext c.sched call next := by
  unfold Machine.swapContext
  dsimp only
  split
  · rfl
  · rfl

theorem swapContext_flags {next : Nat} (stale : (c.sched.thread next).justInitialized = false) :
    (Machine.swapContext scratch c call next).eflags = c.eflags := by
  unfold Machine.swapContext
  dsimp only
  split
  · next fresh => exact absurd (stale.symm.trans fresh) nofun
  · rfl

/-- The thread that gets the processor gets the lock with it, or starts with a release. -/
theorem lockSafe_swapped {rest : List Cell} {next : Nat} (off : interruptFlag c.eflags = false)
    (top : c.stack = .place .afterSwapContext :: .place p :: rest) (releases : Releases p)
    (others : ∀ t, t ≠ c.sched.currentThread → GivesBack (c.saved t).kernelStack (c.sched.thread t).justInitialized)
    (returned : (Machine.swapContext scratch c call next).retn = some m') : LockSafe m' := by
  obtain ⟨current, saved, stack, -⟩ := @swapContext_swaps scratch c call next
  have sched := @swapContext_sched scratch c call next
  unfold Machine.retn at returned
  split at returned
  · next q under here =>
    cases returned
    -- the stack of the thread that gets the processor, and of every other one
    have frames (t : Nat) :
        GivesBack ((Machine.swapContext scratch c call next).saved t).kernelStack (c.sched.thread t).justInitialized := by
      rw [saved]
      split
      · exact .inr (.inr ⟨p, rest, top, releases⟩)
      · next other => exact others t other
    have lists (t : Nat) (away : t ≠ next) :
        ((Machine.swapContext scratch c call next).sched.thread t).justInitialized = (c.sched.thread t).justInitialized := by
      rw [sched, swapContext_thread]
      exact if_neg away
    cases fresh : (c.sched.thread next).justInitialized with
    | true =>
      have free : (Machine.swapContext scratch c call next).sched.schedulerLock = false := by
        rw [sched]
        exact swapContext_fresh call fresh
      refine ⟨fun held => absurd (held.symm.trans free) nofun, fun held => absurd (held.symm.trans free) nofun, ?_⟩
      intro t rests
      have away : t ≠ next := fun same => rests (same.trans current.symm)
      exact (lists t away).symm ▸ frames t
    | false =>
      refine ⟨fun _ => ?_, fun _ => ?_, fun t rests => ?_⟩
      · exact (congrArg interruptFlag (swapContext_flags fresh)).trans off
      · rw [stack] at here
        rcases frames next with empty | ⟨_, new⟩ | ⟨r, more, frame, back⟩
        · rw [empty] at here
          cases here
        · exact absurd (fresh.symm.trans new) nofun
        · rw [frame] at here
          cases here
          exact .inr ⟨rfl, r, more, rfl, back⟩
      · have away : t ≠ next := fun same => rests (same.trans current.symm)
        exact (lists t away).symm ▸ frames t
  · cases returned

theorem lockSafe_pspSwapThread {rest : List Cell} (off : interruptFlag c.eflags = false)
    (top : c.stack = .place p :: rest) (releases : Releases p)
    (others : ∀ t, t ≠ c.sched.currentThread → GivesBack (c.saved t).kernelStack (c.sched.thread t).justInitialized)
    (swapped : Machine.pspSwapThread checked scratch c call = some m') : LockSafe m' := by
  unfold Machine.pspSwapThread at swapped
  simp only [Option.bind_eq_bind, Option.bind_eq_some_iff] at swapped
  obtain ⟨s, requeued, w, processed, next, -, returned⟩ := swapped
  have stays := (requeueCurrent_stays (ok_of_toOption requeued)).trans (pspProcessWaitList_stays (ok_of_toOption processed))
  refine lockSafe_swapped (c := Machine.push { c with sched := w } (.place .afterSwapContext)) off
    (congrArg (List.cons _) top) releases (fun t rests => ?_) returned
  change GivesBack (c.saved t).kernelStack (w.thread t).justInitialized
  rw [stays.fresh]
  exact others t fun here => rests (here.trans stays.current.symm)

theorem lockSafe_psSwapThread
    (others : ∀ t, t ≠ c.sched.currentThread → GivesBack (c.saved t).kernelStack (c.sched.thread t).justInitialized)
    (swapped : Machine.psSwapThread checked scratch c call = some m') : LockSafe m' := by
  unfold Machine.psSwapThread Machine.lock at swapped
  simp only [Option.bind_eq_bind, Option.bind_eq_some_iff, Option.pure_def, Option.some.injEq] at swapped
  obtain ⟨_, ⟨s, taken, rfl⟩, swapped⟩ := swapped
  obtain ⟨-, rfl⟩ := lock_free (ok_of_toOption taken)
  refine lockSafe_pspSwapThread (p := .afterPspSwapThread) ?_ rfl trivial ?_ swapped
  · exact interruptFlag_cli c.eflags
  · exact others

theorem lockSafe_psQuantumEnd
    (others : ∀ t, t ≠ c.sched.currentThread → GivesBack (c.saved t).kernelStack (c.sched.thread t).justInitialized)
    (ended : Machine.psQuantumEnd checked scratch c = some m') : LockSafe m' := by
  unfold Machine.psQuantumEnd at ended
  refine lockSafe_psSwapThread (fun t rests => ?_) ended
  have ready : Stays c.sched (c.sched.setThread c.sched.currentThread fun r => { r with state := .ready }) :=
    stays_setThread (fun _ => rfl) (fun _ => rfl) fun _ => rfl
  have given := others t rests
  rw [← ready.fresh t] at given
  exact given

theorem LockSafe.irq0Handler (safe : LockSafe m) (on : interruptFlag m.eflags = true)
    (handled : Machine.irq0Handler checked scratch m = some m') : LockSafe m' := by
  have free : m.sched.schedulerLock = false :=
    eq_false_of_ne_true fun held => absurd ((safe.off held).symm.trans on) nofun
  unfold Machine.irq0Handler Machine.pspSchedulerTimerInterruptDispatcher at handled
  dsimp only at handled
  split at handled
  · unfold Machine.retn Machine.push at handled
    cases handled
    exact safe.free ⟨rfl, rfl, rfl, rfl⟩ (fun _ => rfl) free
  · refine lockSafe_psQuantumEnd ?_ handled
    exact safe.others

/-- Where a thread runs its own code, and at the start and the end of a call, the lock is free. -/
theorem LockSafe.own {eip : BitVec 32} (safe : LockSafe m) (here : m.place = .own eip) : m.sched.schedulerLock = false := by
  refine safe.unlocked ?_ ?_
  · rw [here]
    exact id
  · rw [here]
    exact nofun

theorem LockSafe.startWait {sleep : SchedState → SchedState} (safe : LockSafe m) (sleeps : ∀ s, Stays s (sleep s))
    (started : Machine.startWait checked scratch m call sleep = some m') : LockSafe m' := by
  unfold Machine.startWait Machine.lock at started
  simp only [Option.bind_eq_bind, Option.bind_eq_some_iff, Option.pure_def, Option.some.injEq] at started
  obtain ⟨_, ⟨s, taken, rfl⟩, swapped⟩ := started
  obtain ⟨-, rfl⟩ := lock_free (ok_of_toOption taken)
  have slept := sleeps { m.sched with schedulerLock := true }
  refine lockSafe_pspSwapThread (p := .afterWait call) ?_ rfl trivial (fun t rests => ?_) swapped
  · exact interruptFlag_cli m.eflags
  · have other : t ≠ m.sched.currentThread := fun here => rests (here.trans slept.current.symm)
    have given := safe.others t other
    change GivesBack (m.saved t).kernelStack _
    rw [← slept.fresh t] at given
    exact given

/-- PsTerminateThread is the one call that keeps the lock. -/
def KeepsLock : SchedOp → Prop
  | .terminate _ _ => True
  | _ => False

/-- The calls that leave the threads as they are when they give the processor back. -/
def LeavesThreads : SchedOp → Prop
  | .create _ | .exit _ | .terminate _ _ => False
  | _ => True

theorem perform_stays {s u : SchedState} {op : SchedOp} (stays : ¬Switches s op) (leaves : LeavesThreads op)
    (performed : perform checked s op = .ok u) : Stays s u := by
  cases op with
  | create w => exact absurd leaves id
  | wait o => exact waitPassed_stays (eq_true_of_ne_false stays) performed
  | setEvent o inc => exact setEvent_stays performed
  | delay n => exact absurd trivial stays
  | exit code => exact absurd leaves id
  | exitSwap => exact absurd trivial stays
  | terminate w code => exact absurd leaves id
  | quantumEnd => exact absurd trivial stays
  | acquire x => exact acquirePassed_stays (not_switches_acquire stays) performed
  | release x => exact exReleaseMutex_stays performed

theorem LockSafe.callBack {op : SchedOp} {eip : BitVec 32} (safe : LockSafe m) (own : m.place = .own eip)
    (stays : ¬Switches m.sched op) (called : m.callBack checked op scratch = some m') (leaves : LeavesThreads op) :
    LockSafe m' := by
  have same := callBack_same stays called
  unfold Machine.callBack at called
  simp only [Option.bind_eq_bind, Option.bind_eq_some_iff, Option.pure_def, Option.some.injEq] at called
  obtain ⟨s, performed, rfl⟩ := called
  have kept := perform_stays stays leaves (ok_of_toOption performed)
  exact safe.free same kept.fresh (kept.lock.trans (safe.own own))

theorem LockSafe.psExitThread {code : BitVec 32} (safe : LockSafe m) (free : m.sched.schedulerLock = false)
    (exited : m.psExitThread code = some m') : LockSafe m' := by
  have same := (Machine.psExitThread_exits exited).2.toSameThread
  unfold Machine.psExitThread at exited
  simp only [Option.bind_eq_bind, Option.bind_eq_some_iff, Option.pure_def, Option.some.injEq] at exited
  obtain ⟨s, done, rfl⟩ := exited
  obtain ⟨-, lock, -, -, fresh⟩ := psExitThread_leaves (ok_of_toOption done)
  exact safe.free same fresh (lock.trans free)

theorem LockSafe.afterCall {op : SchedOp} {eip : BitVec 32} (safe : LockSafe m) (own : m.place = .own eip)
    (released : ¬KeepsLock op) (called : m.call checked op scratch = some m') : LockSafe m' := by
  unfold Machine.call at called
  cases op with
  | delay n => exact safe.startWait (fun _ => delayCurrent_stays) called
  | wait o =>
    dsimp only at called
    split at called
    · next signaled =>
      exact safe.callBack own (fun switches => by rw [Switches, signaled] at switches; cases switches) called trivial
    · exact safe.startWait (fun _ => blockOn_stays) called
  | acquire x =>
    dsimp only at called
    split at called
    · next passes =>
      refine safe.callBack own (fun switches => ?_) called trivial
      rcases passes with first | signaled
      · exact switches.1 first
      · have impossible := signaled.symm.trans switches.2
        cases impossible
    · exact safe.startWait (fun _ => blockOn_stays) called
  | exit code => exact safe.psExitThread (safe.own own) called
  | setEvent o inc => exact safe.callBack own id called trivial
  | terminate w code => exact absurd trivial released
  | release x => exact safe.callBack own id called trivial
  | create w => cases called
  | exitSwap => cases called
  | quantumEnd => cases called

theorem pspCreateThread_fresh {s u : SchedState} {w : Nat} (created : Ps.pspCreateThread s w = .ok u) :
    u.schedulerLock = false ∧ (u.thread w).justInitialized = true ∧ (u.thread w).kernelStack = .baseThreadStartup ∧
      ∀ t, t ≠ w → u.thread t = s.thread t := by
  unfold Ps.pspCreateThread at created
  cases locked : pspLockSchedulerDatabase s with
  | error e =>
    rw [locked, error_bind] at created
    cases created
  | ok x =>
    rw [locked, ok_bind] at created
    obtain ⟨-, rfl⟩ := lock_free locked
    cases created
    refine ⟨rfl, ?_, ?_, fun t other => ?_⟩
    · rw [unlock_thread, setThread_thread, if_pos rfl]
    · rw [unlock_thread, setThread_thread, if_pos rfl]
    · rw [unlock_thread, setThread_thread, if_neg other]

theorem LockSafe.create {u q : Nat} {a b : BitVec 32} (safe : LockSafe m)
    (created : m.pspCreateThread checked u a b q scratch = some m') : LockSafe m' := by
  unfold Machine.pspCreateThread Machine.callBack at created
  simp only [Option.bind_eq_bind, Option.bind_eq_some_iff, Option.pure_def, Option.some.injEq] at created
  obtain ⟨_, ⟨s, performed, rfl⟩, rfl⟩ := created
  have current := pspCreateThread_current (ok_of_toOption performed)
  obtain ⟨free, fresh, -, old⟩ := pspCreateThread_fresh (ok_of_toOption performed)
  refine ⟨fun held => absurd (held.symm.trans free) nofun, fun held => absurd (held.symm.trans free) nofun, ?_⟩
  intro t rests
  have other : t ≠ m.sched.currentThread := fun here => rests (here.trans current.symm)
  by_cases new : t = u
  · subst new
    rw [save_self]
    exact .inr (.inl ⟨⟨_, rfl⟩, fresh⟩)
  · have given := safe.others t other
    rw [← old t new] at given
    exact (congrArg (fun r : Saved => GivesBack r.kernelStack _) (if_neg new)).mpr given

theorem LockSafe.retn (safe : LockSafe m) (returned : m.retn = some m')
    (held : m.sched.schedulerLock = true → m.place = .afterSwapContext) : LockSafe m' := by
  have same := retn_same returned
  unfold Machine.retn at returned
  split at returned
  · next q stack top =>
    cases returned
    refine ⟨safe.off, fun locked => ?_, safe.others⟩
    rcases safe.inside locked with inside | ⟨_, p, rest, here, releases⟩
    · rw [held locked] at inside
      exact absurd inside id
    · rw [top] at here
      cases here
      exact .inl releases
  · cases returned

theorem LockSafe.unlock (safe : LockSafe m) : LockSafe m.unlock := ⟨nofun, nofun, safe.others⟩

theorem LockSafe.finishWait (safe : LockSafe m) (finished : m.finishWait call = some m') : LockSafe m' := by
  unfold Machine.finishWait at finished
  split at finished
  · next ebx ebp esi edi old stack _ =>
    have taken : Stays m.sched (takeMutex m.sched call) := takeMutex_stays
    refine LockSafe.retn ⟨fun held => ?_, fun held => ?_, fun t rests => ?_⟩ finished fun held => ?_
    · exact absurd (held : false = true) nofun
    · exact absurd (held : false = true) nofun
    · have given := safe.others t fun here => rests (here.trans taken.current.symm)
      rw [← taken.fresh t] at given
      exact given
    · exact absurd (held : false = true) nofun
  · cases finished

theorem LockSafe.goOn (safe : LockSafe m) (went : Machine.goOn checked scratch m = some m') : LockSafe m' := by
  have code := went
  unfold Machine.goOn at code
  -- outside the way from a switch to its release the lock is free
  have free (outside : ¬Releases m.place) (away : m.place ≠ .afterSwapContext) : m.sched.schedulerLock = false :=
    safe.unlocked outside away
  cases here : m.place with
  | own eip =>
    rw [here] at code
    cases code
  | baseThreadStartup =>
    rw [here] at code free
    dsimp only at code
    split at code
    · cases code
      exact safe.free ⟨rfl, rfl, rfl, rfl⟩ (fun _ => rfl) (free id nofun)
    · cases code
  | afterStartRoutine =>
    rw [here] at code free
    exact safe.psExitThread (free id nofun) code
  | afterSwapContext =>
    rw [here] at code
    exact safe.retn code fun _ => here
  | afterPsSwapThread | afterPsQuantumEnd =>
    rw [here] at code free
    exact safe.retn code fun held => absurd (held.symm.trans (free id nofun)) nofun
  | afterPspSwapThread =>
    rw [here] at code
    exact safe.unlock.retn code nofun
  | afterDispatcher =>
    rw [here] at code free
    dsimp only at code
    unfold Machine.endOfInterrupt at code
    split at code
    · cases code
      exact safe.free ⟨rfl, rfl, rfl, rfl⟩ (fun _ => rfl) (free id nofun)
    · cases code
  | afterWait call =>
    rw [here] at code
    exact safe.finishWait code
  | exitTail =>
    rw [here] at code free
    refine lockSafe_psSwapThread ?_ code
    exact safe.others
  | afterExitSwap =>
    rw [here] at code
    cases code

end safety

/-- No call of the run terminates another thread. -/
def Event.Releases : Event → Prop
  | .call _ op _ => ¬KeepsLock op
  | _ => True

theorem LockSafe.step {checked : Bool} {m m' : Machine} {e : Event} (safe : LockSafe m) (releases : e.Releases)
    (stepped : machineStep checked m e = some m') : LockSafe m' := by
  unfold machineStep at stepped
  cases e with
  | own u f =>
    dsimp only at stepped
    split at stepped
    · next eip here =>
      split at stepped
      · cases stepped
        exact safe.free ⟨rfl, rfl, rfl, rfl⟩ (fun _ => rfl) (safe.own here)
      · cases stepped
    · cases stepped
  | call u op scratch =>
    dsimp only at stepped
    split at stepped
    · next eip here =>
      split at stepped
      · exact safe.afterCall here releases stepped
      · cases stepped
    · cases stepped
  | create u w a b p scratch =>
    dsimp only at stepped
    split at stepped
    · split at stepped
      · exact safe.create stepped
      · cases stepped
    · cases stepped
  | startRoutineReturns u =>
    dsimp only at stepped
    split at stepped
    · next eip stack here top =>
      split at stepped
      · exact safe.retn stepped fun held => absurd (held.symm.trans (safe.own here)) nofun
      · cases stepped
    · cases stepped
  | timer scratch =>
    dsimp only at stepped
    split at stepped
    · next on => exact safe.irq0Handler on stepped
    · cases stepped
  | goOn scratch => exact safe.goOn stepped

theorem Launched.lockSafe {m : Machine} {eip : BitVec 32} (launched : Launched m eip)
    (free : m.sched.schedulerLock = false) : LockSafe m :=
  ⟨fun held => absurd (held.symm.trans free) nofun, fun held => absurd (held.symm.trans free) nofun,
    fun t rests => .inl (launched.others t rests)⟩

end Gr8os.Ps
