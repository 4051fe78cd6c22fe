import Gr8os.Ex.Mutex

/-! Threads that sleep for a number of passes over the wait list. PspUnwaitThread wakes only threads that wait for
objects, so that nothing ever wakes them. -/
namespace Gr8os.Ps

open Intrusive Ke Runs Ex

def passes (checked : Bool) : Nat → SchedState → Result
  | 0, s => .ok s
  | k + 1, s => do
    let s ← pspProcessWaitList checked s
    passes checked k s

def InReadyList (s : SchedState) (t : Nat) : Prop := ∃ ready, Ring s.sched .psReadyListHead (threads ready) ∧ t ∈ ready

/-- The current thread goes to sleep and the pass of its number wakes it, no earlier one, and none breaks the wait list. -/
structure WakesOnTime (checked : Bool) (s : SchedState) (clockTickCount : BitVec 32) : Prop where
  early : ∀ k < clockTickCount.toNat, ∃ u, passes checked k (delayCurrent s clockTickCount) = .ok u ∧
    ¬InReadyList u s.currentThread
  inTime : ∃ u, passes checked clockTickCount.toNat (delayCurrent s clockTickCount) = .ok u ∧
    InReadyList u s.currentThread
  wellFormed : ∀ k, ∃ u wait, passes checked k (delayCurrent s clockTickCount) = .ok u ∧
    Ring u.sched .psWaitListHead (threads wait)

section passes

variable {checked : Bool} {s : SchedState} {ready wait : List Nat} {queue : Nat → List Nat}

theorem passes_ticks (checked : Bool) (k : Nat) (ok : ListsOk s ready wait) :
    ∃ ticks, passes checked k s = .ok (s.withTicks ticks) := by
  induction k generalizing s with
  | zero => exact ⟨fun t => (s.thread t).delayedTickCount, rfl⟩
  | succ k ih =>
    obtain ⟨first, code⟩ := pspProcessWaitList_ticks checked ok
    have after : ListsOk (s.withTicks first) ready wait := ok.congr rfl rfl fun _ => rfl
    obtain ⟨ticks, rest⟩ := ih after
    exact ⟨ticks, by rw [passes, code, ok_bind, rest]; rfl⟩

theorem ListsOk.not_inReadyList {t : Nat} (ok : ListsOk s ready wait) (member : t ∈ wait) : ¬InReadyList s t := by
  rintro ⟨others, ring, here⟩
  exact ok.disjoint t (ok.ready_eq ring.2 ▸ here) member

/-- However many passes follow, the thread that went to sleep stays at the end of the wait list. -/
theorem passes_asleep (checked : Bool) (clockTickCount : BitVec 32) (k : Nat) (ok : Settled s ready wait queue)
    (stays : s.current.exiting = false) : ∃ u front, passes checked k (delayCurrent s clockTickCount) = .ok u ∧
      ListsOk u front (wait ++ [s.currentThread]) ∧ ¬InReadyList u s.currentThread := by
  obtain ⟨front, switching⟩ := delay_switching ok stays clockTickCount
  obtain ⟨ticks, code⟩ := passes_ticks checked k switching.lists
  have lists : ListsOk ((delayCurrent s clockTickCount).withTicks ticks) front (wait ++ [s.currentThread]) :=
    switching.lists.congr rfl rfl fun _ => rfl
  exact ⟨_, front, code, lists, lists.not_inReadyList (by simp)⟩

theorem not_wakesOnTime (checked : Bool) (clockTickCount : BitVec 32) (ok : Settled s ready wait queue)
    (stays : s.current.exiting = false) : ¬WakesOnTime checked s clockTickCount := by
  rintro ⟨-, ⟨v, woken, here⟩, -⟩
  obtain ⟨u, front, code, -, asleep⟩ := passes_asleep checked clockTickCount clockTickCount.toNat ok stays
  cases code.symm.trans woken
  exact asleep here

end passes

/-- A thread that sleeps, or was terminated in its sleep. -/
structure Asleep (s : SchedState) (t : Nat) : Prop where
  waitType : (s.thread t).waitType = .executionDelayed
  state : (s.thread t).state = .wait ∨ (s.thread t).state = .terminated
  known : t ∈ s.threadList

section asleep

variable {checked : Bool} {s u : SchedState} {ready wait : List Nat} {queue : Nat → List Nat} {t : Nat}

theorem Asleep.not_ready (asleep : Asleep s t) : (s.thread t).state ≠ .ready ∧ (s.thread t).state ≠ .running := by
  rcases asleep.state with state | state
  all_goals
    rw [state]
    decide

theorem Asleep.congr (asleep : Asleep s t) (thread : u.thread t = s.thread t) (known : ∀ v ∈ s.threadList, v ∈ u.threadList) :
    Asleep u t := by
  refine ⟨?_, ?_, known t asleep.known⟩
  · rw [thread]
    exact asleep.waitType
  · rw [thread]
    exact asleep.state

theorem Asleep.switch {return_ : SwapReturn} (asleep : Asleep s t) (ok : Switching s ready wait queue)
    (leaves : return_ ≠ .baseThreadStartup) (dead : return_ = .exitThread → s.current.state = .terminated)
    (swapped : pspSwapThread checked s return_ = .ok u) : Asleep u t := by
  rcases pspSwapThread_cases checked ok leaves dead with ⟨v, code, after⟩ | ⟨-, halted | halted⟩
  · cases code.symm.trans swapped
    have inReady : u.currentThread ∈ ready := by
      have here := after.here
      rw [requeued] at here
      split at here
      · rename_i stays
        rcases List.mem_append.mp here with rest | own
        · exact List.mem_of_mem_erase rest
        · have current : u.currentThread = s.currentThread := List.mem_singleton.mp own
          rcases ok.lists.placed s.currentThread ok.stacksOk.currentKnown (by rw [← SchedState.current, stays]; decide)
            with inReady | waits
          · exact current ▸ inReady
          · have state := ok.lists.waitState _ waits
            rw [← SchedState.current, stays] at state
            cases state
      · exact here
    have other : t ≠ u.currentThread := by
      rintro rfl
      exact asleep.not_ready.1 (ok.allReady _ inReady)
    obtain ⟨state, waitType⟩ := after.others t other
    exact ⟨waitType.trans asleep.waitType, state ▸ asleep.state, after.threadList ▸ asleep.known⟩
  all_goals
    rw [halted] at swapped
    cases swapped

theorem pspUnwaitThread_asleep {v : Nat} {inc : BitVec 16} (asleep : Asleep s t)
    (code : pspUnwaitThread checked s v inc = .ok u) : Asleep u t := by
  obtain ⟨w, first, rest⟩ := bind_eq_ok.mp code
  cases assert_cases first
  split at rest
  · rename_i waits
    cases rest
    have other : t ≠ v := by
      rintro rfl
      rw [asleep.waitType] at waits
      cases waits
    exact asleep.congr (if_neg other) fun _ known => known
  · cases rest
    exact asleep

theorem kiSetEventFrom_asleep {event : Nat} {inc : BitVec 16} (fuel : Nat) {node : WaitNode} (asleep : Asleep s t)
    (code : kiSetEventFrom checked event inc fuel node s = .ok u) : Asleep u t := by
  induction fuel generalizing node s with
  | zero => cases code
  | succ fuel ih =>
    cases node with
    | waitListHead o => cases code
    | waitBlock v i =>
      rw [kiSetEventFrom] at code
      split at code
      · cases code
      dsimp only at code
      split at code
      · obtain ⟨w, woken, rest⟩ := bind_eq_ok.mp code
        have after := pspUnwaitThread_asleep asleep woken
        split at rest
        · cases rest
          exact after
        split at rest
        · cases rest
          exact after
        · exact ih after rest
      · split at code
        · cases code
          exact asleep
        · exact ih asleep code

theorem keSetEvent_asleep {event : Nat} {inc : BitVec 16} {old : Bool} (asleep : Asleep s t)
    (code : keSetEvent checked s event inc = .ok (old, u)) : Asleep u t := by
  obtain ⟨v, locked, rest⟩ := bind_eq_ok.mp code
  cases lock_cases locked
  obtain ⟨⟨before, w⟩, set, final⟩ := bind_eq_ok.mp rest
  cases final
  unfold kiSetEvent satisfyWaiters at set
  obtain ⟨x, woken, same⟩ := bind_eq_ok.mp set
  cases same
  have signaled : Asleep (SchedState.setSignaled { s with schedulerLock := true } event true) t :=
    asleep.congr rfl fun _ known => known
  split at woken
  · exact (kiSetEventFrom_asleep _ signaled woken).congr rfl fun _ known => known
  · cases woken
    exact asleep.congr rfl fun _ known => known

theorem Settled.asleep_away (ok : Settled s ready wait queue) (asleep : Asleep s t) (stays : s.current.exiting = false) :
    t ≠ s.currentThread := by
  rintro rfl
  exact asleep.not_ready.2 (ok.current_ready stays).2

theorem perform_asleep {op : SchedOp} (ok : Settled s ready wait queue) (enabled : Enabled s op)
    (calm : ExitUninterrupted s op) (asleep : Asleep s t) (code : perform checked s op = .ok u) : Asleep u t := by
  have locked : Asleep { s with schedulerLock := true } t := asleep.congr rfl fun _ known => known
  cases op with
  | create v =>
    obtain ⟨w, held, rest⟩ := bind_eq_ok.mp code
    cases lock_cases held
    cases rest
    have other : t ≠ v := fun same => enabled.2 (same ▸ asleep.known)
    exact asleep.congr (if_neg other) fun _ known => List.mem_append_left [v] known
  | wait o =>
    obtain ⟨w, held, rest⟩ := bind_eq_ok.mp code
    cases lock_cases held
    dsimp only at rest
    split at rest
    · cases rest
      exact asleep.congr rfl fun _ known => known
    · obtain ⟨front, queue', switching⟩ := blockOn_switching o (ok.setLock true) enabled
      have queued : Asleep (blockOn { s with schedulerLock := true } o) t :=
        locked.congr (if_neg (ok.asleep_away asleep enabled)) fun _ known => known
      exact queued.switch switching (by decide) (fun h => by cases h) rest
  | setEvent e inc =>
    cases set : keSetEvent checked s e inc with
    | error h => simp [perform, set, Except.map] at code
    | ok r =>
      have result : r.2 = u := by simpa [perform, set, Except.map] using code
      subst result
      exact keSetEvent_asleep asleep set
  | delay n =>
    obtain ⟨w, held, rest⟩ := bind_eq_ok.mp code
    cases lock_cases held
    obtain ⟨front, switching⟩ := delay_switching (ok.setLock true) enabled n
    have queued : Asleep (delayCurrent { s with schedulerLock := true } n) t :=
      locked.congr (if_neg (ok.asleep_away asleep enabled)) fun _ known => known
    exact queued.switch switching (by decide) (fun h => by cases h) rest
  | exit c =>
    obtain ⟨w, held, rest⟩ := bind_eq_ok.mp code
    cases lock_cases held
    cases rest
    exact asleep.congr (if_neg (ok.asleep_away asleep enabled)) fun _ known => known
  | exitSwap =>
    obtain ⟨w, held, rest⟩ := bind_eq_ok.mp code
    cases lock_cases held
    exact locked.switch (exitSwap_switching (ok.setLock true) enabled) (by decide) (fun _ => ok.current_dead enabled) rest
  | terminate v c =>
    obtain ⟨w, held, rest⟩ := bind_eq_ok.mp code
    cases lock_cases held
    cases rest
    refine ⟨?_, ?_, asleep.known⟩
    · by_cases same : t = v <;> simp [same, ← asleep.waitType]
    · by_cases same : t = v
      · exact .inr (by simp [same])
      · simpa [same] using asleep.state
  | quantumEnd =>
    obtain ⟨w, held, rest⟩ := bind_eq_ok.mp code
    cases lock_cases held
    have stays := calm rfl
    have ended : Asleep (SchedState.setThread { s with schedulerLock := true } s.currentThread fun r =>
        { r with state := .ready }) t := locked.congr (if_neg (ok.asleep_away asleep stays)) fun _ known => known
    exact ended.switch (quantumEnd_switching (ok.setLock true) stays) (by decide) (fun h => by cases h) rest
  | acquire m =>
    dsimp only [perform, exAcquireMutex] at code
    split at code
    · cases code
      exact asleep.congr rfl fun _ known => known
    · obtain ⟨w, held, rest⟩ := bind_eq_ok.mp code
      cases lock_cases held
      dsimp only at rest
      split at rest
      · cases rest
        exact asleep.congr rfl fun _ known => known
      · obtain ⟨front, queue', switching⟩ := blockOn_switching m (ok.setLock true) enabled
        have queued : Asleep (blockOn { s with schedulerLock := true } m) t :=
          locked.congr (if_neg (ok.asleep_away asleep enabled)) fun _ known => known
        exact queued.switch switching (by simp) (fun h => by cases h) rest
  | release m =>
    dsimp only [perform, exReleaseMutex] at code
    split at code
    · cases code
      exact asleep.congr rfl fun _ known => known
    · obtain ⟨r, set, rest⟩ := bind_eq_ok.mp code
      cases rest
      have dropped : Asleep { s with holders := fun o =>
          if o = m then (s.holders o).erase s.currentThread else s.holders o } t :=
        asleep.congr rfl fun _ known => known
      exact keSetEvent_asleep dropped set

theorem asleep_step {op : SchedOp} (resting : Resting s) (calm : ExitUninterrupted s op) (asleep : Asleep s t)
    (step : schedStep checked s op = some u) : Asleep u t := by
  obtain ⟨enabled, result⟩ := Option.ite_none_right_eq_some.mp step
  cases ran : perform checked s op with
  | error h => simp [ran, Except.toOption] at result
  | ok v =>
    have same : v = u := by simpa [ran, Except.toOption] using result
    subst same
    cases resting with
    | free settled unlocked => exact perform_asleep settled enabled calm asleep ran
    | stuck lists locked =>
      rcases perform_stuck checked op locked with halted | ⟨-, holders, done⟩
      · rw [halted] at ran
        cases ran
      · cases done.symm.trans ran
        exact asleep.congr rfl fun _ known => known

/-- Whatever happens, a thread that sleeps is never ready again. -/
theorem asleep_run {ops : List SchedOp} (resting : Resting s) (asleep : Asleep s t)
    (run : Run (Guarded ExitUninterrupted fun s op t => schedStep checked s op = some t) s ops u) : Asleep u t := by
  have both : Resting u ∧ Asleep u t := by
    refine run.invariant (I := fun s => Resting s ∧ Asleep s t) ?_ ⟨resting, asleep⟩
    rintro v op w ⟨rests, sleeps⟩ ⟨calm, step⟩
    exact ⟨(resting_step checked op rests calm step).1, asleep_step rests calm sleeps step⟩
  exact both.2

theorem psDelayThreadExecution_asleep {clockTickCount : BitVec 32} (ok : Settled s ready wait queue)
    (stays : s.current.exiting = false) (code : psDelayThreadExecution checked s clockTickCount = .ok u) :
    Resting u ∧ Asleep u s.currentThread := by
  obtain ⟨w, held, rest⟩ := bind_eq_ok.mp code
  cases lock_cases held
  obtain ⟨front, switching⟩ := delay_switching (ok.setLock true) stays clockTickCount
  have asleep : Asleep (delayCurrent { s with schedulerLock := true } clockTickCount) s.currentThread :=
    ⟨by simp [delayCurrent], .inl (by simp [delayCurrent]), ok.stacksOk.currentKnown⟩
  refine ⟨?_, asleep.switch switching (by decide) (fun h => by cases h) rest⟩
  have leaves : SwapReturn.delayThreadExecution ≠ .baseThreadStartup := by decide
  rcases pspSwapThread_cases checked switching leaves (fun h => by cases h) with ⟨v, swapped, after⟩ | ⟨-, halted | halted⟩
  · cases swapped.symm.trans rest
    exact .free after.settled after.unlocked
  all_goals
    rw [halted] at rest
    cases rest

end asleep

/-- A thread that calls PsDelayThreadExecution never wakes: no number of passes puts it into the ready list, though they
keep the wait list as it is, and nothing else that happens makes it ready. -/
theorem delay_never_ends (checked : Bool) (clockTickCount : BitVec 32) {s : SchedState} {ready wait : List Nat}
    {queue : Nat → List Nat} (ok : Settled s ready wait queue) (stays : s.current.exiting = false) :
    ¬WakesOnTime checked s clockTickCount ∧
    (∀ k, ∃ u front, passes checked k (delayCurrent s clockTickCount) = .ok u ∧
      ListsOk u front (wait ++ [s.currentThread]) ∧ ¬InReadyList u s.currentThread) ∧
    ∀ u ops w, psDelayThreadExecution checked s clockTickCount = .ok u →
      Run (Guarded ExitUninterrupted fun s op t => schedStep checked s op = some t) u ops w →
      (w.thread s.currentThread).state ≠ .ready ∧ (w.thread s.currentThread).state ≠ .running := by
  refine ⟨not_wakesOnTime checked clockTickCount ok stays,
    fun k => passes_asleep checked clockTickCount k ok stays, fun u ops w called run => ?_⟩
  obtain ⟨resting, asleep⟩ := psDelayThreadExecution_asleep ok stays called
  exact (asleep_run resting asleep run).not_ready

def oneRuns : List SchedOp := [.create 1, .quantumEnd]

theorem oneRuns_settled : ∃ s ready wait queue,
    exec (guarded ExitUninterrupted (schedStep true)) (bootState oneEvent) oneRuns = some s ∧
    Settled s ready wait queue ∧ s.current.exiting = false ∧ s.currentThread = 1 ∧
    ∃ u, psDelayThreadExecution true s 1 = .ok u ∧ u.currentThread = 0 := by
  have finishes : ((exec (guarded ExitUninterrupted (schedStep true)) (bootState oneEvent) oneRuns).bind fun s =>
      (psDelayThreadExecution true s 1).toOption.map fun u =>
        (s.schedulerLock, s.current.exiting, s.currentThread, u.currentThread)) = some (false, false, 1, 0) := by
    decide
  obtain ⟨s, run, rest⟩ := Option.bind_eq_some_iff.mp finishes
  obtain ⟨u, call, ends⟩ := Option.map_eq_some_iff.mp rest
  simp only [Prod.mk.injEq] at ends
  obtain ⟨unlocked, stays, current, next⟩ := ends
  have called : psDelayThreadExecution true s 1 = .ok u := by
    cases result : psDelayThreadExecution true s 1 with
    | error halt =>
      rw [result] at call
      cases call
    | ok v =>
      rw [result] at call
      cases call
      rfl
  cases (bootState_booted oneEvent).resting_run (guarded_run run) with
  | stuck lists locked => simp [unlocked] at locked
  | free settled _ => exact ⟨s, _, _, _, run, settled, stays, current, u, called, next⟩

/-- Thread 1 sleeps for one pass, and never wakes. -/
theorem oneSleeps_forever : ∃ s u, exec (guarded ExitUninterrupted (schedStep true)) (bootState oneEvent) oneRuns = some s ∧
    psDelayThreadExecution true s 1 = .ok u ∧ u.currentThread = 0 ∧
    ∀ ops w, Run (Guarded ExitUninterrupted fun s op t => schedStep true s op = some t) u ops w →
      (w.thread 1).state ≠ .ready ∧ (w.thread 1).state ≠ .running := by
  obtain ⟨s, ready, wait, queue, run, settled, stays, current, u, called, next⟩ := oneRuns_settled
  refine ⟨s, u, run, called, next, fun ops w rest => ?_⟩
  have never := (delay_never_ends true 1 settled stays).2.2 u ops w called rest
  rwa [current] at never

theorem oneSleeps_late : ∃ s, exec (guarded ExitUninterrupted (schedStep true)) (bootState oneEvent) oneRuns = some s ∧
    s.current.exiting = false ∧ ∀ checked : Bool, ¬WakesOnTime checked s 1 := by
  obtain ⟨s, ready, wait, queue, run, settled, stays, -⟩ := oneRuns_settled
  exact ⟨s, run, stays, fun checked => not_wakesOnTime checked 1 settled stays⟩

end Gr8os.Ps
