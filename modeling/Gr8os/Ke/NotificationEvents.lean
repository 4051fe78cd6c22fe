import Gr8os.Ps.SchedulerRuns
import Mathlib.Data.List.Basic

/-! An event that wakes everybody who waits for it. The walk follows the links that the wait blocks keep when they are
taken off the list. -/
namespace Gr8os.Ke

open Ps Intrusive Runs

/-- The waiters of an object have been woken one after the other. -/
def unwaitedAll (s : SchedState) (inc : BitVec 16) (ts : List Nat) : SchedState :=
  ts.foldl (fun s t => s.unwaited inc t) s

section wake

variable {s : SchedState} {ready wait rest ts : List Nat} {queue : Nat → List Nat} {o t u : Nat} {inc : BitVec 16}

theorem unwaitedAll_other (other : u ∉ ts) : (unwaitedAll s inc ts).thread u = s.thread u := by
  induction ts generalizing s with
  | nil => rfl
  | cons t ts ih =>
    obtain ⟨notFirst, notRest⟩ := List.ne_and_not_mem_of_not_mem_cons other
    exact (ih notRest).trans (unwaited_other notFirst)

/-- A thread that was woken is ready, and waits for nothing. -/
structure Woken (inc : BitVec 16) (r : Thread) : Prop where
  state : r.state = .ready
  waitType : r.waitType = .notWaiting
  objects : r.numberOfObjectsWaiting = 0
  quantum : r.quantumDynamic = inc

theorem unwaited_woken : Woken inc ((s.unwaited inc t).thread t) := by
  have own : (s.unwaited inc t).thread t = { s.thread t with
      state := .ready, quantumDynamic := inc, waitBlockUsed := none, waitType := .notWaiting,
      numberOfObjectsWaiting := 0 } := if_pos rfl
  rw [own]
  exact ⟨rfl, rfl, rfl, rfl⟩

theorem unwaitedAll_woken (distinct : ts.Nodup) (member : t ∈ ts) : Woken inc ((unwaitedAll s inc ts).thread t) := by
  induction ts generalizing s with
  | nil => cases member
  | cons v ts ih =>
    obtain ⟨notLater, distinct⟩ := List.nodup_cons.mp distinct
    rcases List.mem_cons.mp member with first | later
    · subst first
      have kept : (unwaitedAll s inc (t :: ts)).thread t = (s.unwaited inc t).thread t := unwaitedAll_other notLater
      rw [kept]
      exact unwaited_woken
    · exact ih distinct later

/-- What a walk over the whole queue leaves: the waiters stand in front of the ready list, the last one first. -/
theorem kiSetEventFrom_all (checked : Bool) (inc : BitVec 16) {fuel : Nat} (ok : Settled s ready wait queue)
    (first : queue o = t :: rest) (room : rest.length < fuel)
    (kind : (s.header o).objectType ≠ .synchronizationEvent) :
    kiSetEventFrom checked o inc fuel (.waitBlock t 0) s = .ok (unwaitedAll s inc (t :: rest)) ∧
      Settled (unwaitedAll s inc (t :: rest)) ((t :: rest).reverse ++ ready) (wait.diff (t :: rest))
        fun p => if p = o then [] else queue p := by
  induction rest generalizing fuel s t ready wait queue with
  | nil =>
    obtain ⟨fuel, rfl⟩ := Nat.exists_eq_succ_of_ne_zero (Nat.ne_of_gt room)
    obtain ⟨-, after, -⟩ := wake_first checked inc ok first
    refine ⟨?_, ?_⟩
    · rw [Nat.succ_eq_add_one, kiSetEventFrom_first checked inc ok first, if_neg kind]
      rfl
    · rw [List.diff_cons, List.diff_nil]
      exact after
  | cons r rest ih =>
    cases fuel with
    | zero => exact absurd room (Nat.not_lt_zero _)
    | succ fuel =>
      obtain ⟨-, after, -⟩ := wake_first checked inc ok first
      have kindAfter : ((s.unwaited inc t).header o).objectType ≠ .synchronizationEvent := kind
      obtain ⟨code, settled⟩ := ih after (if_pos rfl) (Nat.lt_of_succ_lt_succ room) kindAfter
      refine ⟨?_, ?_⟩
      · rw [kiSetEventFrom_first checked inc ok first, if_neg kind]
        exact code
      · have order : (t :: r :: rest).reverse ++ ready = (r :: rest).reverse ++ t :: ready := by simp
        have queues : (fun p => if p = o then [] else queue p) =
            fun p => if p = o then [] else if p = o then r :: rest else queue p := by
          funext p
          by_cases here : p = o
          · rw [if_pos here, if_pos here]
          · rw [if_neg here, if_neg here, if_neg here]
        rw [order, queues, List.diff_cons]
        exact settled

theorem kiSetEvent_all (checked : Bool) (inc : BitVec 16) (ok : Settled s ready wait queue)
    (kind : (s.header o).objectType ≠ .synchronizationEvent) :
    kiSetEvent checked s o inc =
        .ok ((s.header o).signaledState, unwaitedAll (s.setSignaled o true) inc (queue o)) ∧
      Settled (unwaitedAll (s.setSignaled o true) inc (queue o)) ((queue o).reverse ++ ready) (wait.diff (queue o))
        fun p => if p = o then [] else queue p := by
  have okS := ok.setSignaled o true
  cases h : queue o with
  | nil =>
    have queues : (fun p => if p = o then [] else queue p) = queue := by
      funext p
      by_cases here : p = o
      · rw [if_pos here, here, h]
      · exact if_neg here
    refine ⟨kiSetEvent_idle checked inc ok h, ?_⟩
    rw [queues]
    exact okS
  | cons t rest =>
    obtain ⟨start, room⟩ := kiSetEvent_walk checked inc ok h
    have kindS : ((s.setSignaled o true).header o).objectType ≠ .synchronizationEvent := by
      simpa [SchedState.setSignaled] using kind
    obtain ⟨code, settled⟩ := kiSetEventFrom_all checked inc okS h room kindS
    exact ⟨by rw [start, code]; rfl, settled⟩

end wake

/-- Everybody in the queue of an event goes from the wait list to the ready list, once, and nobody else is touched. -/
structure WakesAll (s u : SchedState) (inc : BitVec 16) (ready wait : List Nat) (queue : Nat → List Nat) (o : Nat) :
    Prop where
  readyList : Ring u.sched .psReadyListHead (threads ((queue o).reverse ++ ready))
  waitList : Ring u.sched .psWaitListHead (threads (wait.diff (queue o)))
  moved : ∀ t ∈ queue o, t ∈ wait ∧ t ∉ wait.diff (queue o) ∧ ((queue o).reverse ++ ready).count t = 1
  woken : ∀ t ∈ queue o, Woken inc (u.thread t)
  emptied : isListEmpty u.waiters (.waitListHead o) = true
  untouched : ∀ t ∉ queue o, u.thread t = s.thread t ∧ (t ∈ wait.diff (queue o) ↔ t ∈ wait)
  elsewhere : ∀ p, p ≠ o → Ring u.waiters (.waitListHead p) (blocks (queue p)) ∧ ∀ t ∈ queue p, t ∉ queue o

theorem keSetEvent_wakesAll (checked : Bool) (inc : BitVec 16) {s : SchedState} {ready wait : List Nat}
    {queue : Nat → List Nat} {event : Nat} (ok : Settled s ready wait queue) (unlocked : s.schedulerLock = false)
    (kind : (s.header event).objectType = .notificationEvent) :
    ∃ u, keSetEvent checked s event inc = .ok ((s.header event).signaledState, u) ∧
      WakesAll s u inc ready wait queue event := by
  have locked := ok.setLock true
  obtain ⟨code, after⟩ := kiSetEvent_all (o := event) checked inc locked (by simp [kind])
  have distinct : (queue event).Nodup := (List.nodup_cons.mp (ok.waiters.ring event).1).2.of_map _
  have left : ∀ t, t ∈ wait.diff (queue event) ↔ t ∈ wait ∧ t ∉ queue event :=
    fun t => ok.lists.wait_nodup.mem_sdiff_iff
  have run : keSetEvent checked s event inc = .ok ((s.header event).signaledState, pspUnlockSchedulerDatabase
      (unwaitedAll (SchedState.setSignaled { s with schedulerLock := true } event true) inc (queue event))) := by
    rw [keSetEvent, lock_ok unlocked, ok_bind, code]
    rfl
  refine ⟨_, run, after.lists.readyRing, after.lists.waitRing, ?_, ?_, ?_, ?_, ?_⟩
  · intro t member
    have inReady : t ∈ (queue event).reverse ++ ready := List.mem_append_left ready (List.mem_reverse.mpr member)
    exact ⟨ok.waiters.waiting event t member, fun still => ((left t).mp still).2 member,
      List.count_eq_one_of_mem after.lists.ready_nodup inReady⟩
  · exact fun t member => unwaitedAll_woken distinct member
  · have ring := after.waiters.ring event
    rw [if_pos rfl] at ring
    exact (isListEmpty_iff ring).mpr rfl
  · intro t other
    exact ⟨unwaitedAll_other other, (left t).trans (and_iff_left other)⟩
  · intro p away
    have ring := after.waiters.ring p
    rw [if_neg away] at ring
    exact ⟨ring, fun t inP inO => away (ok.waiters.once inP inO)⟩

def notifications : Nat → SchedulerHeader := fun _ => ⟨.notificationEvent, false⟩

def twoWait : List SchedOp := [.create 1, .create 2, .quantumEnd, .wait 7, .wait 7]

theorem twoWait_woken : ∃ s ready wait queue u,
    exec (guarded ExitUninterrupted (schedStep true)) (bootState notifications) twoWait = some s ∧
    keSetEvent true s 7 2 = .ok ((s.header 7).signaledState, u) ∧ WakesAll s u 2 ready wait queue 7 ∧
    Woken 2 (u.thread 1) ∧ Woken 2 (u.thread 2) := by
  have finishes : (exec (guarded ExitUninterrupted (schedStep true)) (bootState notifications) twoWait).map
      (fun s => (s.schedulerLock, (s.header 7).objectType, s.waiters.flink (.waitListHead 7),
        s.waiters.blink (.waitListHead 7))) = some (false, .notificationEvent, .waitBlock 2 0, .waitBlock 1 0) := by
    decide
  obtain ⟨s, run, states⟩ := Option.map_eq_some_iff.mp finishes
  simp only [Prod.mk.injEq] at states
  obtain ⟨unlocked, kind, first, last⟩ := states
  cases (bootState_booted notifications).resting_run (guarded_run run) with
  | stuck lists locked => simp [unlocked] at locked
  | @free ready wait queue settled _ =>
    have two := segment_first_mem (settled.waiters.ring 7).2
    have one := segment_last_mem (settled.waiters.ring 7).2
    rw [first] at two
    rw [last] at one
    obtain ⟨u, code, wakes⟩ := keSetEvent_wakesAll true 2 settled unlocked kind
    refine ⟨s, ready, wait, queue, u, run, code, wakes, wakes.woken 1 ?_, wakes.woken 2 ?_⟩
    · exact mem_blocks.mp (by simpa using one)
    · exact mem_blocks.mp (by simpa using two)

end Gr8os.Ke
