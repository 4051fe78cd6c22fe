import Gr8os.Ps.SchedulerRuns

/-! What PsTerminateThread leaves behind: the lock, the wait blocks of the thread, and every later operation. -/
namespace Gr8os.Ps

open Intrusive Ke Runs

/-- The thread is out of the way of whatever the scheduler does next. -/
structure TerminatedCleanly (checked : Bool) (u : SchedState) (t : Nat) : Prop where
  lockFree : u.schedulerLock = false
  unscheduled : ∀ head xs, Ring u.sched head xs → (head = .psReadyListHead ∨ head = .psWaitListHead) →
    .thread t ∉ xs
  unqueued : ∀ o xs, Ring u.waiters (.waitListHead o) xs → ∀ i, .waitBlock t i ∉ xs
  neverReady : ∀ ops w, Run (fun s op w => schedStep checked s op = some w) u ops w → (w.thread t).state ≠ .ready

section Terminate

variable {checked : Bool} {s u w : SchedState} {t : Nat} {code : BitVec 32}

theorem psTerminateThread_inv (call : psTerminateThread s t code = .ok u) : s.schedulerLock = false ∧
    u = ({ s with schedulerLock := true, sched := removeEntryList s.sched (.thread t) }.setThread t
      fun r => { r with exitCode := code, state := .terminated }) := by
  cases locked : s.schedulerLock with
  | true =>
    rw [psTerminateThread, lock_error locked, error_bind] at call
    cases call
  | false =>
    rw [psTerminateThread, lock_ok locked, ok_bind] at call
    cases call
    exact ⟨rfl, rfl⟩

/-- With the lock taken for good no operation changes a thread any more. -/
theorem stuck_run {ops : List SchedOp} (locked : u.schedulerLock = true)
    (run : Run (fun s op w => schedStep checked s op = some w) u ops w) :
    w.schedulerLock = true ∧ w.thread = u.thread := by
  induction run with
  | done => exact ⟨locked, rfl⟩
  | @next a b c op ops first _ ih =>
    obtain ⟨-, code⟩ := Option.ite_none_right_eq_some.mp first
    rcases perform_stuck checked op locked with halted | ⟨-, holders, done⟩
    · rw [halted] at code
      cases code
    · rw [done] at code
      cases Option.some.inj code
      exact ih locked

theorem psTerminateThread_keeps_lock (other : t ≠ s.currentThread) (call : psTerminateThread s t code = .ok u) :
    ¬ TerminatedCleanly checked u t ∧ u.currentThread ≠ t ∧ u.waiters = s.waiters ∧
      ∀ ops w, Run (fun s op w => schedStep checked s op = some w) u ops w →
        w.schedulerLock = true ∧ (w.thread t).state = .terminated := by
  obtain ⟨-, rfl⟩ := psTerminateThread_inv call
  refine ⟨fun clean => absurd clean.lockFree (by simp), Ne.symm other, rfl, ?_⟩
  intro ops w run
  obtain ⟨locked, same⟩ := stuck_run (by simp) run
  refine ⟨locked, ?_⟩
  rw [same]
  simp

end Terminate

/-- Thread 1 waits for event 7 when thread 0 comes back to terminate it. -/
def oneWaits : List SchedOp := [.create 1, .quantumEnd, .wait 7]

theorem oneWaits_ends : ∃ s u, exec (schedStep true) (bootState oneEvent) oneWaits = some s ∧
    psTerminateThread s 1 5 = .ok u ∧ s.currentThread = 0 ∧ u.schedulerLock = true ∧
      u.waiters.flink (.waitListHead 7) = .waitBlock 1 0 := by
  have finishes : ((exec (schedStep true) (bootState oneEvent) oneWaits).bind fun s =>
      (psTerminateThread s 1 5).toOption.map fun u =>
        (s.currentThread, u.schedulerLock, u.waiters.flink (.waitListHead 7))) = some (0, true, .waitBlock 1 0) := by
    decide
  obtain ⟨s, run, rest⟩ := Option.bind_eq_some_iff.mp finishes
  obtain ⟨u, call, ends⟩ := Option.map_eq_some_iff.mp rest
  simp only [Prod.mk.injEq] at ends
  refine ⟨s, u, run, ?_, ends⟩
  cases result : psTerminateThread s 1 5 with
  | error halt =>
    rw [result] at call
    cases call
  | ok v =>
    rw [result] at call
    cases call
    rfl

theorem terminated_waiter : ∃ s u, exec (schedStep true) (bootState oneEvent) oneWaits = some s ∧
    psTerminateThread s 1 5 = .ok u ∧ ¬ TerminatedCleanly true u 1 ∧ u.waiters = s.waiters := by
  obtain ⟨s, u, run, call, current, -⟩ := oneWaits_ends
  have other : 1 ≠ s.currentThread := by
    rw [current]
    decide
  obtain ⟨unclean, -, waiters, -⟩ := @psTerminateThread_keeps_lock true _ _ _ _ other call
  exact ⟨s, u, run, call, unclean, waiters⟩

/-- The lock is held, and event 7 still queues the dead thread. -/
theorem terminated_waiter_queued : ∃ s u, exec (schedStep true) (bootState oneEvent) oneWaits = some s ∧
    1 ≠ s.currentThread ∧ psTerminateThread s 1 5 = .ok u ∧ u.schedulerLock = true ∧
      u.waiters.flink (.waitListHead 7) = .waitBlock 1 0 ∧ ¬ TerminatedCleanly true u 1 := by
  obtain ⟨s, u, run, call, current, locked, queued⟩ := oneWaits_ends
  refine ⟨s, u, run, ?_, call, locked, queued, ?_⟩
  · rw [current]
    decide
  · intro clean
    exact absurd (locked.symm.trans clean.lockFree) (by simp)

end Gr8os.Ps
