import Gr8os.Lib.Turns
import Gr8os.Ps.SchedulerRuns

/-! The order in which quantum ends give the processor to the threads of the ready list. -/
namespace Gr8os.Ps

open Intrusive Ke Runs Turns

def quantumEnds (checked : Bool) : Nat → SchedState → Except Halt (SchedState × List Nat)
  | 0, s => .ok (s, [])
  | n + 1, s => do
    let s ← psQuantumEnd checked s
    let (u, order) ← quantumEnds checked n s
    .ok (u, s.currentThread :: order)

/-- Every thread of the ready list runs once, the order is a rotation of the list, and so is the list that is left. -/
def RoundRobin (checked : Bool) (s : SchedState) (ready : List Nat) : Prop :=
  ∃ u order ready', quantumEnds checked ready.length s = .ok (u, order) ∧ order.Perm ready ∧ order ~r ready ∧
    Ring u.sched .psReadyListHead (threads ready') ∧ ready' ~r ready

section order

variable {checked : Bool} {s : SchedState} {ready wait : List Nat} {queue : Nat → List Nat}

theorem Settled.stays (ok : Settled s ready wait queue) (here : s.currentThread ∈ ready) : s.current.exiting = false := by
  have state : s.current.state = .running := (ok.running _ here).mpr rfl
  by_contra leaves
  have dead := ok.current_dead (Bool.not_eq_false _ ▸ leaves)
  exact absurd (state.symm.trans dead) (by decide)

def quantumEnded (s : SchedState) : SchedState :=
  SchedState.setThread { s with schedulerLock := true } s.currentThread fun r => { r with state := .ready }

theorem nextThread_turn (s : SchedState) (distinct : ready.Nodup) :
    nextThread (quantumEnded s) (turn (ready, s.currentThread)).1 = (turn (ready, s.currentThread)).2 := by
  have rest : s.currentThread ∉ ready.erase s.currentThread := distinct.not_mem_erase
  have same : (quantumEnded s).currentThread = s.currentThread := rfl
  rw [nextThread, turn, same]
  dsimp only
  cases others : ready.erase s.currentThread with
  | nil => simp
  | cons t ts =>
    have other : t ≠ s.currentThread := fun same => rest (others ▸ same ▸ List.mem_cons_self)
    simp [other]

theorem psQuantumEnd_turn (checked : Bool) (ok : Settled s ready wait queue) (unlocked : s.schedulerLock = false)
    (here : s.currentThread ∈ ready) :
    ∃ u, psQuantumEnd checked s = .ok u ∧ Settled u (turn (ready, s.currentThread)).1 wait queue ∧
      u.schedulerLock = false ∧ u.currentThread = (turn (ready, s.currentThread)).2 ∧
      u.currentThread ∈ (turn (ready, s.currentThread)).1 := by
  have switching : Switching (quantumEnded s) ready wait queue :=
    quantumEnd_switching (ok.setLock true) (ok.stays here)
  have state : (quantumEnded s).current.state = .ready := by simp [quantumEnded, SchedState.current]
  have list : requeued (quantumEnded s) ready = (turn (ready, s.currentThread)).1 := if_pos state
  have code : psQuantumEnd checked s = pspSwapThread checked (quantumEnded s) .quantumEnd := by
    unfold psQuantumEnd psSwapThread
    dsimp only
    rw [lock_ok (by exact unlocked), ok_bind]
    rfl
  have leaves : SwapReturn.quantumEnd ≠ .baseThreadStartup := by decide
  rcases pspSwapThread_cases checked switching leaves (fun h => by cases h) with ⟨u, swapped, after⟩ | ⟨idle, -⟩
  · refine ⟨u, code.trans swapped, list ▸ after.settled, after.unlocked, ?_, list ▸ after.here⟩
    rw [after.next, list, nextThread_turn s ok.lists.ready_nodup]
  · exact absurd state idle

theorem quantumEnds_turns (checked : Bool) (n : Nat) (ok : Settled s ready wait queue) (unlocked : s.schedulerLock = false)
    (here : s.currentThread ∈ ready) :
    ∃ u, quantumEnds checked n s = .ok (u, order n (ready, s.currentThread)) ∧
      Settled u (turn^[n] (ready, s.currentThread)).1 wait queue ∧ u.schedulerLock = false ∧
      u.currentThread = (turn^[n] (ready, s.currentThread)).2 := by
  induction n generalizing s ready with
  | zero => exact ⟨s, rfl, ok, unlocked, rfl⟩
  | succ n ih =>
    obtain ⟨v, first, okV, unlockedV, current, hereV⟩ := psQuantumEnd_turn checked ok unlocked here
    obtain ⟨u, later, after⟩ := ih okV unlockedV hereV
    have state : ((turn (ready, s.currentThread)).1, v.currentThread) = turn (ready, s.currentThread) :=
      Prod.ext rfl current
    rw [state] at later after
    refine ⟨u, ?_, after⟩
    rw [quantumEnds, first, ok_bind, later, ok_bind, order, current]

/-- The threads run in the order of the list with the current thread behind the others, and the list is left so that the
same order follows. -/
theorem quantumEnds_all (checked : Bool) (ok : Settled s ready wait queue) (unlocked : s.schedulerLock = false)
    (here : s.currentThread ∈ ready) :
    ∃ u, quantumEnds checked ready.length s = .ok (u, ready.erase s.currentThread ++ [s.currentThread]) ∧
      Settled u (s.currentThread :: ready.erase s.currentThread) wait queue ∧ u.schedulerLock = false ∧
      u.currentThread = s.currentThread := by
  obtain ⟨u, code, after⟩ := quantumEnds_turns checked ready.length ok unlocked here
  obtain ⟨served, final⟩ := order_all here
  rw [served] at code
  rw [final] at after
  exact ⟨u, code, after⟩

theorem roundRobin_iff (ok : Settled s ready wait queue) (unlocked : s.schedulerLock = false)
    (here : s.currentThread ∈ ready) :
    RoundRobin checked s ready ↔ ready.head? = some s.currentThread ∨ ready.getLast? = some s.currentThread := by
  obtain ⟨u, code, after, -⟩ := quantumEnds_all checked ok unlocked here
  rw [← order_rotated_iff ok.lists.ready_nodup here]
  constructor
  · rintro ⟨v, order, ready', ran, -, rotated, -⟩
    cases code.symm.trans ran
    exact rotated
  · intro rotated
    have left : s.currentThread :: ready.erase s.currentThread ~r ready :=
      (List.isRotated_concat _ _).symm.trans rotated
    exact ⟨u, _, _, code, rotated.perm, rotated, after.lists.readyRing, left⟩

/-- As many quantum ends as there are threads run each of them once, in the order of the list with the running thread at
its end. That is a rotation of the list if this thread is the first or the last of it. -/
theorem quantumEnds_order (checked : Bool) (ok : Settled s ready wait queue) (unlocked : s.schedulerLock = false)
    (here : s.currentThread ∈ ready) :
    (∃ u, quantumEnds checked ready.length s = .ok (u, ready.erase s.currentThread ++ [s.currentThread]) ∧
      Ring u.sched .psReadyListHead (threads (s.currentThread :: ready.erase s.currentThread)) ∧
      u.currentThread = s.currentThread) ∧
    (ready.erase s.currentThread ++ [s.currentThread]).Perm ready ∧ ready.Nodup ∧
    (RoundRobin checked s ready ↔ ready.head? = some s.currentThread ∨ ready.getLast? = some s.currentThread) := by
  obtain ⟨u, code, after, -, current⟩ := quantumEnds_all checked ok unlocked here
  have perm : (ready.erase s.currentThread ++ [s.currentThread]).Perm ready :=
    (List.perm_append_singleton _ _).trans (List.perm_cons_erase here).symm
  exact ⟨⟨u, code, after.lists.readyRing, current⟩, perm, ok.lists.ready_nodup, roundRobin_iff ok unlocked here⟩

end order

/-- The lock, the current thread and the links of the ready list after a run with the threads 0, 1 and 2. -/
def threeLinks (s : SchedState) : Bool × Nat × List SchedNode × List SchedNode :=
  let nodes := [SchedNode.psReadyListHead, .thread 2, .thread 1, .thread 0]
  (s.schedulerLock, s.currentThread, nodes.map s.sched.flink, nodes.map s.sched.blink)

theorem three_ready {ops : List SchedOp} {running : Nat}
    (finishes : (exec (guarded ExitUninterrupted (schedStep true)) (bootState oneEvent) ops).map threeLinks =
      some (false, running, [.thread 2, .thread 1, .thread 0, .psReadyListHead],
        [.thread 0, .psReadyListHead, .thread 2, .thread 1])) :
    ∃ s wait queue, exec (guarded ExitUninterrupted (schedStep true)) (bootState oneEvent) ops = some s ∧
      Settled s [2, 1, 0] wait queue ∧ s.schedulerLock = false ∧ s.currentThread = running := by
  obtain ⟨s, run, states⟩ := Option.map_eq_some_iff.mp finishes
  simp only [threeLinks, Prod.mk.injEq, List.map_cons, List.map_nil, List.cons.injEq, and_true] at states
  obtain ⟨unlocked, current, ⟨f0, f1, f2, f3⟩, b0, b1, b2, b3⟩ := states
  have segment : Segment s.sched .psReadyListHead (threads [2, 1, 0]) .psReadyListHead :=
    ⟨f0, b1, f1, b2, f2, b3, f3, b0⟩
  cases (bootState_booted oneEvent).resting_run (guarded_run run) with
  | stuck lists locked => simp [unlocked] at locked
  | free settled _ =>
    cases settled.lists.ready_eq segment
    exact ⟨s, _, _, run, settled, unlocked, current⟩

def twoCreated : List SchedOp := [.create 1, .create 2]

theorem twoCreated_order : ∃ s u, exec (guarded ExitUninterrupted (schedStep true)) (bootState oneEvent) twoCreated =
    some s ∧ quantumEnds true 3 s = .ok (u, [2, 1, 0]) ∧ RoundRobin true s [2, 1, 0] := by
  obtain ⟨s, wait, queue, run, settled, unlocked, current⟩ := @three_ready twoCreated 0 (by decide)
  have here : s.currentThread ∈ [2, 1, 0] := by simp [current]
  obtain ⟨⟨u, code, -⟩, -, -, same⟩ := quantumEnds_order true settled unlocked here
  rw [current] at code same
  exact ⟨s, u, run, code, same.mpr (by decide)⟩

/-- Thread 1 creates thread 2, which is put in front of it. -/
def createdInFront : List SchedOp := [.create 1, .quantumEnd, .create 2]

theorem createdInFront_order : ∃ s wait queue,
    exec (guarded ExitUninterrupted (schedStep true)) (bootState oneEvent) createdInFront = some s ∧
    Settled s [2, 1, 0] wait queue ∧ s.schedulerLock = false ∧ s.currentThread ∈ [2, 1, 0] ∧
    ¬RoundRobin true s [2, 1, 0] := by
  obtain ⟨s, wait, queue, run, settled, unlocked, current⟩ := @three_ready createdInFront 1 (by decide)
  have here : s.currentThread ∈ [2, 1, 0] := by simp [current]
  refine ⟨s, wait, queue, run, settled, unlocked, here, ?_⟩
  rw [roundRobin_iff settled unlocked here, current]
  decide

end Gr8os.Ps
