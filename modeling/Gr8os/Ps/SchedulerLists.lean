import Gr8os.Ps.Scheduler
import Mathlib.Data.List.Nodup

/-! What the scheduler lists hold, and the two ways a thread moves between them: it is
woken, or the processor is switched. -/
namespace Gr8os.Ps

open Intrusive Ke

def threads (ts : List Nat) : List SchedNode := ts.map SchedNode.thread
def blocks (ts : List Nat) : List WaitNode := ts.map fun t => .waitBlock t 0

/-- The two lists hold every live thread once, in the list of its state. -/
structure ListsOk (s : SchedState) (ready wait : List Nat) : Prop where
  readyRing : Ring s.sched .psReadyListHead (threads ready)
  waitRing : Ring s.sched .psWaitListHead (threads wait)
  disjoint : ∀ t ∈ ready, t ∉ wait
  readyState : ∀ t ∈ ready, (s.thread t).state = .ready ∨ (s.thread t).state = .running
  waitState : ∀ t ∈ wait, (s.thread t).state = .wait
  placed : ∀ t ∈ s.threadList, (s.thread t).state ≠ .terminated → t ∈ ready ∨ t ∈ wait
  known : ∀ t, t ∈ ready ∨ t ∈ wait → t ∈ s.threadList

/-- Every object queues the first wait block of the threads that wait for it. -/
structure WaitersOk (s : SchedState) (wait : List Nat) (queue : Nat → List Nat) : Prop where
  ring : ∀ o, Ring s.waiters (.waitListHead o) (blocks (queue o))
  waiting : ∀ o, ∀ t ∈ queue o, t ∈ wait
  blocked : ∀ o, ∀ t ∈ queue o,
    (s.thread t).waitType = .schedulerObjectsAny ∧ (s.thread t).numberOfObjectsWaiting = 1
  once : ∀ {o p t}, t ∈ queue o → t ∈ queue p → o = p

/-- What every thread on a kernel stack will do when it is switched in. -/
structure StacksOk (s : SchedState) : Prop where
  exitingDead : ∀ t ∈ s.threadList, (s.thread t).exiting = true → (s.thread t).state = .terminated
  fresh : ∀ t ∈ s.threadList, t ≠ s.currentThread → (s.thread t).kernelStack = .baseThreadStartup →
    (s.thread t).justInitialized = true
  exited : ∀ t ∈ s.threadList, t ≠ s.currentThread → (s.thread t).kernelStack = .exitThread →
    (s.thread t).state = .terminated
  currentKnown : s.currentThread ∈ s.threadList

/-- The state inside a locked section, when the processor is about to be given away. -/
structure Switching (s : SchedState) (ready wait : List Nat) (queue : Nat → List Nat) : Prop where
  lists : ListsOk s ready wait
  waiters : WaitersOk s wait queue
  stacksOk : StacksOk s
  allReady : ∀ t ∈ ready, (s.thread t).state = .ready

/-- The state while a thread keeps the processor: it runs alone, or has just left the lists to exit. -/
structure Settled (s : SchedState) (ready wait : List Nat) (queue : Nat → List Nat) : Prop where
  lists : ListsOk s ready wait
  waiters : WaitersOk s wait queue
  stacksOk : StacksOk s
  running : ∀ t ∈ ready, (s.thread t).state = .running ↔ t = s.currentThread
  currentPlace : s.current.exiting = true ∨ s.currentThread ∈ ready

@[simp] theorem setThread_thread (s : SchedState) (t u : Nat) (f : Thread → Thread) :
    (s.setThread t f).thread u = if u = t then f (s.thread u) else s.thread u := rfl
@[simp] theorem setThread_sched (s : SchedState) (t : Nat) (f : Thread → Thread) :
    (s.setThread t f).sched = s.sched := rfl
@[simp] theorem setThread_waiters (s : SchedState) (t : Nat) (f : Thread → Thread) :
    (s.setThread t f).waiters = s.waiters := rfl
@[simp] theorem setThread_threadList (s : SchedState) (t : Nat) (f : Thread → Thread) :
    (s.setThread t f).threadList = s.threadList := rfl
@[simp] theorem setThread_currentThread (s : SchedState) (t : Nat) (f : Thread → Thread) :
    (s.setThread t f).currentThread = s.currentThread := rfl
@[simp] theorem setThread_schedulerLock (s : SchedState) (t : Nat) (f : Thread → Thread) :
    (s.setThread t f).schedulerLock = s.schedulerLock := rfl
@[simp] theorem setThread_header (s : SchedState) (t : Nat) (f : Thread → Thread) :
    (s.setThread t f).header = s.header := rfl

@[simp] theorem setPcb_thread (s : SchedState) (t : Nat) : (s.setPcb t).thread = s.thread := rfl
@[simp] theorem setPcb_sched (s : SchedState) (t : Nat) : (s.setPcb t).sched = s.sched := rfl
@[simp] theorem setPcb_waiters (s : SchedState) (t : Nat) : (s.setPcb t).waiters = s.waiters := rfl
@[simp] theorem setPcb_threadList (s : SchedState) (t : Nat) : (s.setPcb t).threadList = s.threadList := rfl
@[simp] theorem setPcb_currentThread (s : SchedState) (t : Nat) : (s.setPcb t).currentThread = t := rfl
@[simp] theorem setPcb_schedulerLock (s : SchedState) (t : Nat) :
    (s.setPcb t).schedulerLock = s.schedulerLock := rfl
@[simp] theorem unlock_thread (s : SchedState) : (pspUnlockSchedulerDatabase s).thread = s.thread := rfl
@[simp] theorem unlock_sched (s : SchedState) : (pspUnlockSchedulerDatabase s).sched = s.sched := rfl
@[simp] theorem unlock_waiters (s : SchedState) : (pspUnlockSchedulerDatabase s).waiters = s.waiters := rfl
@[simp] theorem unlock_threadList (s : SchedState) :
    (pspUnlockSchedulerDatabase s).threadList = s.threadList := rfl
@[simp] theorem unlock_currentThread (s : SchedState) :
    (pspUnlockSchedulerDatabase s).currentThread = s.currentThread := rfl
@[simp] theorem unlock_schedulerLock (s : SchedState) :
    (pspUnlockSchedulerDatabase s).schedulerLock = false := rfl

theorem threads_split (xs ys : List Nat) (t : Nat) :
    threads (xs ++ t :: ys) = threads xs ++ .thread t :: threads ys := by simp [threads]

theorem mem_threads {t : Nat} {ts : List Nat} : SchedNode.thread t ∈ threads ts ↔ t ∈ ts := by
  simp [threads]

theorem mem_blocks {t : Nat} {ts : List Nat} : WaitNode.waitBlock t 0 ∈ blocks ts ↔ t ∈ ts := by
  simp [blocks]

theorem ListsOk.ready_nodup {s : SchedState} {ready wait : List Nat} (ok : ListsOk s ready wait) :
    ready.Nodup := (List.nodup_cons.mp ok.readyRing.1).2.of_map _

theorem ListsOk.wait_nodup {s : SchedState} {ready wait : List Nat} (ok : ListsOk s ready wait) :
    wait.Nodup := (List.nodup_cons.mp ok.waitRing.1).2.of_map _

theorem ListsOk.ready_length {s : SchedState} {ready wait : List Nat} (ok : ListsOk s ready wait) :
    ready.length < listFuel s :=
  Nat.lt_succ_of_le (ok.ready_nodup.length_le_of_subset fun t ht => ok.known t (.inl ht))

theorem ListsOk.wait_length {s : SchedState} {ready wait : List Nat} (ok : ListsOk s ready wait) :
    wait.length < listFuel s :=
  Nat.lt_succ_of_le (ok.wait_nodup.length_le_of_subset fun t ht => ok.known t (.inr ht))

theorem ListsOk.rings_apart {s : SchedState} {ready wait : List Nat} (ok : ListsOk s ready wait) :
    ∀ x ∈ SchedNode.psReadyListHead :: threads ready, x ∉ SchedNode.psWaitListHead :: threads wait := by
  intro x hx hw
  cases x with
  | psReadyListHead => simp [threads] at hw
  | psWaitListHead => simp [threads] at hx
  | thread t =>
    have inReady : t ∈ ready := by simpa [threads] using hx
    have inWait : t ∈ wait := by simpa [threads] using hw
    exact ok.disjoint t inReady inWait

theorem ListsOk.ready_eq {s : SchedState} {ready wait ts : List Nat} (ok : ListsOk s ready wait)
    (segment : Segment s.sched .psReadyListHead (threads ts) .psReadyListHead) : ready = ts := by
  have outside : ∀ ts, SchedNode.psReadyListHead ∉ threads ts := fun ts member => by simp [threads] at member
  have same := segment_unique ok.readyRing.2 segment (outside ready) (outside ts)
  exact List.map_injective_iff.mpr (fun a b => SchedNode.thread.inj) same

theorem assert_true (checked : Bool) (s : SchedState) : assert checked true s = .ok s := by
  simp [assert]

theorem pspUnwaitThread_other {checked : Bool} {s : SchedState} {t : Nat} {inc : BitVec 16}
    (live : (s.thread t).state ≠ .terminated) (other : (s.thread t).waitType ≠ .schedulerObjectsAny) :
    pspUnwaitThread checked s t inc = .ok s := by
  simp [pspUnwaitThread, live, assert_true, other]

/-- The tick counts are all a walk over the wait list changes. -/
def SchedState.withTicks (s : SchedState) (ticks : Nat → BitVec 32) : SchedState :=
  { s with thread := fun t => { s.thread t with delayedTickCount := ticks t } }

def SchedState.tick (s : SchedState) (t : Nat) : SchedState :=
  s.setThread t fun r => { r with delayedTickCount := r.delayedTickCount - 1 }

theorem withTicks_tick (s : SchedState) (t : Nat) (ticks : Nat → BitVec 32) :
    (s.tick t).withTicks ticks = s.withTicks ticks := by
  simp only [SchedState.withTicks, SchedState.tick, SchedState.setThread, SchedState.mk.injEq, true_and, and_true]
  funext u
  by_cases hu : u = t <;> simp [hu]

theorem processWaitListFrom_delayed {checked : Bool} {s : SchedState} {t fuel : Nat}
    (delayed : (s.thread t).waitType = .executionDelayed) (live : (s.thread t).state ≠ .terminated) :
    processWaitListFrom checked (fuel + 1) (.thread t) s =
      processWaitListFrom checked fuel (s.sched.flink (.thread t)) (s.tick t) := by
  have unwait : pspUnwaitThread checked (s.tick t) t 0 = .ok (s.tick t) := by
    apply pspUnwaitThread_other
    · simpa [SchedState.tick] using live
    · simp [SchedState.tick, delayed]
  rw [processWaitListFrom, if_pos delayed]
  change (if ((s.tick t).thread t).delayedTickCount = 0 then
      pspUnwaitThread checked (s.tick t) t 0 >>= processWaitListFrom checked fuel (s.sched.flink (.thread t))
    else processWaitListFrom checked fuel (s.sched.flink (.thread t)) (s.tick t)) = _
  rw [unwait, ok_bind, ite_self]

theorem processWaitListFrom_ticks {checked : Bool} {wait : List Nat} {node : SchedNode} {fuel : Nat}
    {s : SchedState} {before : SchedNode} (segment : Segment s.sched before (threads wait) .psWaitListHead)
    (first : s.sched.flink before = node) (room : wait.length < fuel)
    (live : ∀ t ∈ wait, (s.thread t).state ≠ .terminated) :
    ∃ ticks, processWaitListFrom checked fuel node s = .ok (s.withTicks ticks) := by
  induction wait generalizing before node fuel s with
  | nil =>
    obtain ⟨fuel, rfl⟩ := Nat.exists_eq_succ_of_ne_zero (Nat.ne_of_gt room)
    have last : node = .psWaitListHead := first.symm.trans segment.1
    exact ⟨fun t => (s.thread t).delayedTickCount, by rw [last]; rfl⟩
  | cons t wait ih =>
    cases fuel with
    | zero => exact absurd room (Nat.not_lt_zero _)
    | succ fuel =>
      have here : node = .thread t := first.symm.trans segment.1
      have less : wait.length < fuel := Nat.lt_of_succ_lt_succ room
      have liveRest : ∀ u ∈ wait, (s.thread u).state ≠ .terminated := fun u hu => live u (by simp [hu])
      subst here
      by_cases delayed : (s.thread t).waitType = .executionDelayed
      · have liveTick : ∀ u ∈ wait, ((s.tick t).thread u).state ≠ .terminated := by
          intro u hu
          by_cases hut : u = t <;> simpa [SchedState.tick, hut] using liveRest u hu
        obtain ⟨ticks, after⟩ := ih (s := s.tick t) segment.2.2 rfl less liveTick
        refine ⟨ticks, ?_⟩
        rw [processWaitListFrom_delayed delayed (live t (by simp)), ← withTicks_tick s t]
        exact after
      · rw [processWaitListFrom, if_neg delayed]
        exact ih segment.2.2 rfl less liveRest

theorem pspProcessWaitList_ticks (checked : Bool) {s : SchedState} {ready wait : List Nat}
    (ok : ListsOk s ready wait) : ∃ ticks, pspProcessWaitList checked s = .ok (s.withTicks ticks) := by
  apply processWaitListFrom_ticks ok.waitRing.2 rfl ok.wait_length
  intro t ht
  simp [ok.waitState t ht]

/-- The walk ends at the first thread that is not the current one, or at the head of the list. -/
theorem findReadyThreadFrom_find (checked : Bool) {s : SchedState} {ready : List Nat} {node : SchedNode}
    {fuel : Nat} {before : SchedNode} (segment : Segment s.sched before (threads ready) .psReadyListHead)
    (first : s.sched.flink before = node) (room : ready.length < fuel)
    (allReady : ∀ t ∈ ready, (s.thread t).state = .ready) :
    findReadyThreadFrom checked s fuel node = match ready.find? (· ≠ s.currentThread) with
      | some t => .ok t
      | none => findReadyThreadFrom checked s 1 .psReadyListHead := by
  induction ready generalizing before node fuel with
  | nil =>
    obtain ⟨fuel, rfl⟩ := Nat.exists_eq_succ_of_ne_zero (Nat.ne_of_gt room)
    have last : node = .psReadyListHead := first.symm.trans segment.1
    subst last
    rfl
  | cons t ready ih =>
    cases fuel with
    | zero => exact absurd room (Nat.not_lt_zero _)
    | succ fuel =>
      have here : node = .thread t := first.symm.trans segment.1
      have state : (s.thread t).state = .ready := allReady t (by simp)
      subst here
      have step : findReadyThreadFrom checked s (fuel + 1) (.thread t) = if t ≠ s.currentThread then .ok t
          else findReadyThreadFrom checked s fuel (s.sched.flink (.thread t)) := by
        rw [findReadyThreadFrom, if_neg (by simp [state])]
      rw [step]
      by_cases other : t ≠ s.currentThread
      · have found : (t :: ready).find? (· ≠ s.currentThread) = some t :=
          List.find?_cons_of_pos (decide_eq_true other)
        rw [if_pos other, found]
      · have later : (t :: ready).find? (· ≠ s.currentThread) = ready.find? (· ≠ s.currentThread) :=
          List.find?_cons_of_neg (by simpa using other)
        rw [if_neg other, later]
        exact ih segment.2.2 rfl (Nat.lt_of_succ_lt_succ room) fun u hu => allReady u (by simp [hu])

/-- The thread a switch goes to: the first of the list that does not run already. -/
def nextThread (s : SchedState) (ready : List Nat) : Nat :=
  (ready.find? (· ≠ s.currentThread)).getD s.currentThread

/-- The thread found is in the ready list; the two failures stop the machine. -/
theorem findReadyThread_cases (checked : Bool) {s : SchedState} {ready wait : List Nat}
    {queue : Nat → List Nat} (ok : Switching s ready wait queue) :
    (findReadyThread checked s = .ok (nextThread s ready) ∧ nextThread s ready ∈ ready) ∨
    s.current.state ≠ .ready ∧ (findReadyThread checked s = .error .noReadyThreads ∨
      findReadyThread checked s = .error .stopExecution) := by
  rw [findReadyThread, findReadyThreadFrom_find checked ok.lists.readyRing.2 rfl ok.lists.ready_length ok.allReady,
    nextThread]
  cases found : ready.find? (· ≠ s.currentThread) with
  | some t => exact .inl ⟨rfl, List.mem_of_find?_eq_some found⟩
  | none =>
    by_cases stays : s.current.state = .ready
    · have alive : s.current.state ≠ .terminated := by simp [stays]
      refine .inl ⟨?_, ?_⟩
      · rw [findReadyThreadFrom, if_neg (not_not.mpr stays)]
        rfl
      · rcases ok.lists.placed s.currentThread ok.stacksOk.currentKnown alive with here | waits
        · exact here
        · have := ok.lists.waitState _ waits
          simp [SchedState.current, this] at stays
    · refine .inr ⟨stays, ?_⟩
      dsimp only
      rw [findReadyThreadFrom, if_pos stays]
      split
      · exact .inr rfl
      · exact .inl rfl

theorem ListsOk.congr {s u : SchedState} {ready wait : List Nat} (ok : ListsOk s ready wait)
    (sched : u.sched = s.sched) (list : u.threadList = s.threadList)
    (state : ∀ t, (u.thread t).state = (s.thread t).state) : ListsOk u ready wait where
  readyRing := sched ▸ ok.readyRing
  waitRing := sched ▸ ok.waitRing
  disjoint := ok.disjoint
  readyState := fun t ht => by rw [state]; exact ok.readyState t ht
  waitState := fun t ht => by rw [state]; exact ok.waitState t ht
  placed := fun t ht live => ok.placed t (list ▸ ht) (state t ▸ live)
  known := fun t ht => list ▸ ok.known t ht

theorem WaitersOk.congr {s u : SchedState} {wait : List Nat} {queue : Nat → List Nat}
    (ok : WaitersOk s wait queue) (waiters : u.waiters = s.waiters)
    (same : ∀ o, ∀ t ∈ queue o, (u.thread t).waitType = (s.thread t).waitType ∧
      (u.thread t).numberOfObjectsWaiting = (s.thread t).numberOfObjectsWaiting) :
    WaitersOk u wait queue where
  ring := waiters ▸ ok.ring
  waiting := ok.waiting
  blocked := fun o t ht => by rw [(same o t ht).1, (same o t ht).2]; exact ok.blocked o t ht
  once := ok.once

theorem switching_withTicks {s : SchedState} {ready wait : List Nat} {queue : Nat → List Nat}
    (ok : Switching s ready wait queue) (ticks : Nat → BitVec 32) :
    Switching (s.withTicks ticks) ready wait queue where
  lists := ok.lists.congr rfl rfl fun _ => rfl
  waiters := ok.waiters.congr rfl fun _ _ _ => ⟨rfl, rfl⟩
  stacksOk := ⟨ok.stacksOk.exitingDead, ok.stacksOk.fresh, ok.stacksOk.exited, ok.stacksOk.currentKnown⟩
  allReady := ok.allReady

/-- The ready list when the current thread has gone to its end, if it is still ready. -/
def requeued (s : SchedState) (ready : List Nat) : List Nat :=
  if s.current.state = .ready then ready.erase s.currentThread ++ [s.currentThread] else ready

theorem requeueCurrent_ok (checked : Bool) {s : SchedState} {ready wait : List Nat} {queue : Nat → List Nat}
    (ok : Switching s ready wait queue) :
    ∃ u, requeueCurrent checked s = .ok u ∧ Switching u (requeued s ready) wait queue ∧ u.thread = s.thread ∧
      u.currentThread = s.currentThread ∧ u.threadList = s.threadList := by
  unfold requeueCurrent requeued
  by_cases stays : s.current.state = .ready
  · have alive : (s.thread s.currentThread).state ≠ .terminated := by
      have := stays
      simp only [SchedState.current] at this
      simp [this]
    have member : s.currentThread ∈ ready := by
      rcases ok.lists.placed s.currentThread ok.stacksOk.currentKnown alive with here | waits
      · exact here
      · have := ok.lists.waitState _ waits
        simp [SchedState.current, this] at stays
    obtain ⟨xs, ys, -, split, rest⟩ := List.exists_erase_eq member
    have ring := ok.lists.readyRing
    rw [split, threads_split] at ring
    have apart := ok.lists.rings_apart
    rw [split, threads_split] at apart
    have rotated := ring_rotate ring
    have frame : Ring ((s.sched.unlink (.thread s.currentThread)).insertBefore .psReadyListHead
        (.thread s.currentThread)) .psWaitListHead (threads wait) := by
      have back : ∀ x ∈ SchedNode.psWaitListHead :: threads wait,
          x ∉ SchedNode.psReadyListHead :: (threads xs ++ .thread s.currentThread :: threads ys) :=
        fun x hx hr => apart x hr hx
      obtain ⟨left, kept, _, out, disjoint⟩ := rings_leave ring ok.lists.waitRing back
      exact ring_insertBefore_frame left kept disjoint out
    have perm : (xs ++ ys ++ [s.currentThread]).Perm ready := by
      rw [split]
      exact (List.perm_append_singleton _ _).trans List.perm_middle.symm
    rw [if_pos stays, if_pos stays, rest]
    refine ⟨{ s with
      sched := (s.sched.unlink (.thread s.currentThread)).insertBefore .psReadyListHead (.thread s.currentThread) },
      ?_, ⟨?_, ok.waiters.congr rfl fun _ _ _ => ⟨rfl, rfl⟩, ?_, ?_⟩, rfl, rfl, rfl⟩
    · simp only [pspReadyThread, alive, ne_eq, not_false_eq_true, decide_true, assert_true, ok_bind,
        removeEntryList_eq, insertTailList_eq]
    · refine ⟨by simpa [threads] using rotated, frame, ?_, ?_, ok.lists.waitState, ?_, ?_⟩
      · exact fun t ht => ok.lists.disjoint t (perm.mem_iff.mp ht)
      · exact fun t ht => ok.lists.readyState t (perm.mem_iff.mp ht)
      · exact fun t ht live => (ok.lists.placed t ht live).imp_left perm.mem_iff.mpr
      · exact fun t ht => ok.lists.known t (ht.imp_left perm.mem_iff.mp)
    · exact ⟨ok.stacksOk.exitingDead, ok.stacksOk.fresh, ok.stacksOk.exited, ok.stacksOk.currentKnown⟩
    · exact fun t ht => ok.allReady t (perm.mem_iff.mp ht)
  · rw [if_neg stays, if_neg stays]
    exact ⟨s, rfl, ok, rfl, rfl, rfl⟩

theorem swapContext_thread (s : SchedState) (return_ : SwapReturn) (next u : Nat) :
    (swapContext s return_ next).thread u = { s.thread u with
      kernelStack := if u = s.currentThread then return_ else (s.thread u).kernelStack
      state := if u = next then .running else (s.thread u).state
      quantumDynamic := if u = next then 0 else (s.thread u).quantumDynamic
      justInitialized := if u = next then false else (s.thread u).justInitialized } := by
  unfold swapContext
  dsimp only
  by_cases hn : u = next <;> by_cases hc : u = s.currentThread
  · subst hn
    subst hc
    split <;> simp_all
  · subst hn
    split <;> simp_all
  · subst hc
    split <;> simp [hn]
  · split <;> simp [hn, hc]

theorem swapContext_frame (s : SchedState) (return_ : SwapReturn) (next : Nat) :
    (swapContext s return_ next).sched = s.sched ∧ (swapContext s return_ next).waiters = s.waiters ∧
    (swapContext s return_ next).threadList = s.threadList ∧
    (swapContext s return_ next).currentThread = next := by
  unfold swapContext
  dsimp only
  split <;> simp

theorem swapContext_fresh {s : SchedState} (return_ : SwapReturn) {next : Nat}
    (fresh : (s.thread next).justInitialized = true) :
    (swapContext s return_ next).schedulerLock = false := by
  unfold swapContext
  dsimp only
  rw [if_pos (by by_cases hn : next = s.currentThread <;> simp_all)]
  rfl

/-- A resumed thread changes no list and no thread record. -/
theorem resume_ok {s : SchedState} (returns : s.current.kernelStack ≠ .exitThread)
    (started : s.current.kernelStack = .baseThreadStartup → s.schedulerLock = false) :
    ∃ u, resume s = .ok u ∧ u.schedulerLock = false ∧ u.thread = s.thread ∧ u.sched = s.sched ∧
      u.waiters = s.waiters ∧ u.threadList = s.threadList ∧ u.currentThread = s.currentThread := by
  unfold resume
  cases h : s.current.kernelStack with
  | baseThreadStartup => exact ⟨s, rfl, started h, rfl, rfl, rfl, rfl, rfl⟩
  | quantumEnd => exact ⟨_, rfl, rfl, rfl, rfl, rfl, rfl, rfl⟩
  | exitThread => exact absurd h returns
  | waitForSingleObject => exact ⟨_, rfl, rfl, rfl, rfl, rfl, rfl, rfl⟩
  | acquireMutex m => exact ⟨_, rfl, rfl, rfl, rfl, rfl, rfl, rfl⟩
  | delayThreadExecution => exact ⟨_, rfl, rfl, rfl, rfl, rfl, rfl, rfl⟩

/-- Switching to a thread of the ready list leaves that thread running alone. -/
theorem swap_in {s : SchedState} {ready wait : List Nat} {queue : Nat → List Nat} {return_ : SwapReturn}
    {next : Nat} (ok : Switching s ready wait queue) (member : next ∈ ready)
    (leaves : return_ ≠ .baseThreadStartup) (dead : return_ = .exitThread → s.current.state = .terminated) :
    ∃ u, resume (swapContext s return_ next) = .ok u ∧ Settled u ready wait queue ∧
      u.schedulerLock = false ∧ u.currentThread = next ∧ u.threadList = s.threadList ∧ ∀ t, t ≠ next →
        (u.thread t).state = (s.thread t).state ∧ (u.thread t).waitType = (s.thread t).waitType := by
  obtain ⟨sched, waiters, list, current⟩ := swapContext_frame s return_ next
  have known := ok.lists.known next (.inl member)
  have state := ok.allReady next member
  have stack : (swapContext s return_ next).current.kernelStack =
      if next = s.currentThread then return_ else (s.thread next).kernelStack := by
    rw [SchedState.current, current, swapContext_thread]
  have returns : (swapContext s return_ next).current.kernelStack ≠ .exitThread := by
    rw [stack]
    by_cases self : next = s.currentThread
    · rw [if_pos self]
      intro exits
      have := dead exits
      simp [SchedState.current, ← self, state] at this
    · rw [if_neg self]
      intro exits
      have := ok.stacksOk.exited next known self exits
      simp [state] at this
  have started : (swapContext s return_ next).current.kernelStack = .baseThreadStartup →
      (swapContext s return_ next).schedulerLock = false := by
    rw [stack]
    by_cases self : next = s.currentThread
    · rw [if_pos self]
      exact fun h => absurd h leaves
    · rw [if_neg self]
      exact fun h => swapContext_fresh return_ (ok.stacksOk.fresh next known self h)
  obtain ⟨u, resumed, unlocked, threadU, schedU, waitersU, listU, currentU⟩ := resume_ok returns started
  have thread : ∀ t, u.thread t = _ := fun t => (congrFun threadU t).trans (swapContext_thread s return_ next t)
  have otherState : ∀ t, t ≠ next → (u.thread t).state = (s.thread t).state := by
    intro t ht
    rw [thread]
    exact if_neg ht
  have ownState : (u.thread next).state = .running := by
    rw [thread]
    exact if_pos rfl
  have listEq : u.threadList = s.threadList := listU.trans list
  refine ⟨u, resumed, ⟨⟨?_, ?_, ok.lists.disjoint, ?_, ?_, ?_, ?_⟩, ?_, ⟨?_, ?_, ?_, ?_⟩, ?_, ?_⟩,
    unlocked, currentU.trans current, listEq, ?_⟩
  · exact (schedU.trans sched) ▸ ok.lists.readyRing
  · exact (schedU.trans sched) ▸ ok.lists.waitRing
  · intro t ht
    by_cases hn : t = next
    · exact .inr (hn ▸ ownState)
    · exact .inl ((otherState t hn).trans (ok.allReady t ht))
  · intro t ht
    have hn : t ≠ next := by rintro rfl; exact ok.lists.disjoint _ member ht
    exact (otherState t hn).trans (ok.lists.waitState t ht)
  · intro t ht live
    by_cases hn : t = next
    · exact .inl (hn ▸ member)
    · exact ok.lists.placed t (listEq ▸ ht) (otherState t hn ▸ live)
  · exact fun t ht => listEq ▸ ok.lists.known t ht
  · exact ok.waiters.congr (waitersU.trans waiters) fun o t _ => by rw [thread]; exact ⟨rfl, rfl⟩
  · intro t ht exiting
    have was : (s.thread t).exiting = true := by rw [thread] at exiting; exact exiting
    have deadT := ok.stacksOk.exitingDead t (listEq ▸ ht) was
    have hn : t ≠ next := by rintro rfl; simp [state] at deadT
    exact (otherState t hn).trans deadT
  · intro t ht away startup
    have hn : t ≠ next := fun h => away (h.trans (currentU.trans current).symm)
    rw [thread] at startup ⊢
    by_cases hc : t = s.currentThread
    · simp only [hc, if_true] at startup
      exact absurd startup leaves
    · simp only [hc, if_false] at startup
      simp only [hn, if_false]
      exact ok.stacksOk.fresh t (listEq ▸ ht) hc startup
  · intro t ht away exits
    have hn : t ≠ next := fun h => away (h.trans (currentU.trans current).symm)
    rw [otherState t hn]
    rw [thread] at exits
    by_cases hc : t = s.currentThread
    · simp only [hc, if_true] at exits
      exact hc ▸ dead exits
    · simp only [hc, if_false] at exits
      exact ok.stacksOk.exited t (listEq ▸ ht) hc exits
  · rw [currentU, current, listEq]
    exact known
  · intro t ht
    rw [currentU, current]
    by_cases hn : t = next
    · simp [hn, ownState]
    · simp [hn, otherState t hn, ok.allReady t ht]
  · rw [currentU, current]
    exact .inr member
  · exact fun t ht => ⟨otherState t ht, by rw [thread]⟩

/-- What a switch comes to: the current thread has gone to the end of the ready list, and the first of the others runs. -/
structure Switched (s u : SchedState) (ready wait : List Nat) (queue : Nat → List Nat) : Prop where
  settled : Settled u (requeued s ready) wait queue
  unlocked : u.schedulerLock = false
  next : u.currentThread = nextThread s (requeued s ready)
  here : u.currentThread ∈ requeued s ready
  threadList : u.threadList = s.threadList
  others : ∀ t, t ≠ u.currentThread →
    (u.thread t).state = (s.thread t).state ∧ (u.thread t).waitType = (s.thread t).waitType

/-- A switch ends with the new thread running alone, or stops the machine for want of one. -/
theorem pspSwapThread_cases (checked : Bool) {s : SchedState} {ready wait : List Nat}
    {queue : Nat → List Nat} {return_ : SwapReturn} (ok : Switching s ready wait queue)
    (leaves : return_ ≠ .baseThreadStartup) (dead : return_ = .exitThread → s.current.state = .terminated) :
    (∃ u, pspSwapThread checked s return_ = .ok u ∧ Switched s u ready wait queue) ∨
    s.current.state ≠ .ready ∧ (pspSwapThread checked s return_ = .error .noReadyThreads ∨
      pspSwapThread checked s return_ = .error .stopExecution) := by
  obtain ⟨v, first, okV, threadV, currentV, listV⟩ := requeueCurrent_ok checked ok
  obtain ⟨ticks, second⟩ := pspProcessWaitList_ticks checked okV.lists
  have okT := switching_withTicks okV ticks
  have code : pspSwapThread checked s return_ =
      (findReadyThread checked (v.withTicks ticks) >>= fun next =>
        resume (swapContext (v.withTicks ticks) return_ next)) := by
    unfold pspSwapThread
    rw [first, ok_bind, second, ok_bind]
  have same : (v.withTicks ticks).current.state = s.current.state := by
    simp [SchedState.withTicks, SchedState.current, threadV, currentV]
  have goal : nextThread (v.withTicks ticks) (requeued s ready) = nextThread s (requeued s ready) := by
    rw [nextThread, nextThread, SchedState.withTicks]
    dsimp only
    rw [currentV]
  rw [code]
  rcases findReadyThread_cases checked okT with ⟨found, member⟩ | ⟨stays, found | found⟩
  · obtain ⟨u, resumed, settled, unlocked, current, list, others⟩ := swap_in okT member leaves (same ▸ dead)
    have kept : ∀ t, t ≠ u.currentThread →
        (u.thread t).state = (s.thread t).state ∧ (u.thread t).waitType = (s.thread t).waitType := by
      intro t away
      have frame := others t fun here => away (here.trans current.symm)
      simpa [SchedState.withTicks, threadV] using frame
    exact .inl ⟨u, by rw [found, ok_bind, resumed], settled, unlocked, current.trans goal, current ▸ member,
      list.trans listV, kept⟩
  · exact .inr ⟨same ▸ stays, .inl (by rw [found, error_bind])⟩
  · exact .inr ⟨same ▸ stays, .inr (by rw [found, error_bind])⟩

end Gr8os.Ps
