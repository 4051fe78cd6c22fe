import Gr8os.Ps.SchedulerLists

/-! Every operation of the scheduler keeps its lists, as long as no quantum ends inside
the tail of PsExitThread. -/
namespace Gr8os.Ps

open Intrusive Ke Runs

theorem Settled.waiter_waits {s : SchedState} {ready wait : List Nat} {queue : Nat → List Nat} {o t : Nat}
    (ok : Settled s ready wait queue) (member : t ∈ queue o) :
    (s.thread t).state = .wait ∧ t ≠ s.currentThread := by
  have waits := ok.waiters.waiting o t member
  have state := ok.lists.waitState t waits
  refine ⟨state, ?_⟩
  rintro rfl
  rcases ok.currentPlace with exiting | here
  · have dead := ok.stacksOk.exitingDead _ ok.stacksOk.currentKnown exiting
    simp [state] at dead
  · exact ok.lists.disjoint _ here waits

theorem queues_apart {s : SchedState} {wait : List Nat} {queue : Nat → List Nat} {o p : Nat}
    (ok : WaitersOk s wait queue) (other : p ≠ o) :
    ∀ x ∈ WaitNode.waitListHead p :: blocks (queue p), x ∉ WaitNode.waitListHead o :: blocks (queue o) := by
  intro x hx ho
  cases x with
  | waitListHead q =>
    simp only [blocks, List.mem_cons, WaitNode.waitListHead.injEq, List.mem_map, reduceCtorEq, and_false,
      exists_false, or_false] at hx ho
    exact other (hx.symm.trans ho)
  | waitBlock t i =>
    simp only [blocks, List.mem_cons, List.mem_map, WaitNode.waitBlock.injEq, reduceCtorEq, false_or] at hx ho
    obtain ⟨u, hu, rfl, _⟩ := hx
    obtain ⟨v, hv, rfl, _⟩ := ho
    exact other (ok.once hu hv)

/-- What PspUnwaitThread makes of a thread that waits for one object. -/
def SchedState.unwaited (s : SchedState) (inc : BitVec 16) (t : Nat) : SchedState :=
  { s with
    sched := (s.sched.unlink (.thread t)).insertAfter .psReadyListHead (.thread t)
    waiters := s.waiters.unlink (.waitBlock t 0) }.setThread t fun r => { r with
      state := .ready
      quantumDynamic := inc
      waitBlockUsed := none
      waitType := .notWaiting
      numberOfObjectsWaiting := 0 }

section wake

variable {s : SchedState} {ready wait xs ys rest : List Nat} {queue : Nat → List Nat} {o t u : Nat} {inc : BitVec 16}

theorem unwaited_other (other : u ≠ t) : (s.unwaited inc t).thread u = s.thread u := if_neg other

theorem unwaited_own : ((s.unwaited inc t).thread t).state = .ready := by simp [SchedState.unwaited]

theorem ListsOk.inside (ok : ListsOk s ready (xs ++ t :: ys)) (member : u ∈ xs ++ ys) : u ∈ xs ++ t :: ys ∧ u ≠ t := by
  have perm : (xs ++ t :: ys).Perm (t :: (xs ++ ys)) := List.perm_middle
  have notHere := (List.nodup_cons.mp (perm.nodup_iff.mp ok.wait_nodup)).1
  refine ⟨perm.mem_iff.mpr (List.mem_cons_of_mem t member), ?_⟩
  rintro rfl
  exact notHere member

/-- The thread goes from its place in the wait list to the head of the ready list. -/
theorem ListsOk.unwaited (ok : ListsOk s ready (xs ++ t :: ys)) :
    ListsOk (s.unwaited inc t) (t :: ready) (xs ++ ys) := by
  have source := ok.waitRing
  rw [threads_split] at source
  have apart := ok.rings_apart
  rw [threads_split] at apart
  obtain ⟨waitRing, readyRing⟩ := rings_move_head source ok.readyRing apart
  refine ⟨readyRing, ?_, ?_, ?_, ?_, ?_, ?_⟩
  · rw [threads, List.map_append]
    exact waitRing
  · intro u hu
    rcases List.mem_cons.mp hu with rfl | hu
    · exact fun h => (ok.inside h).2 rfl
    · exact fun h => ok.disjoint u hu (ok.inside h).1
  · intro u hu
    by_cases hut : u = t
    · exact .inl (hut ▸ unwaited_own)
    · rw [unwaited_other hut]
      exact ok.readyState u ((List.mem_cons.mp hu).resolve_left hut)
  · intro u hu
    rw [unwaited_other (ok.inside hu).2]
    exact ok.waitState u (ok.inside hu).1
  · intro u hu live
    by_cases hut : u = t
    · exact .inl (by simp [hut])
    · rw [unwaited_other hut] at live
      rcases ok.placed u hu live with h | h
      · exact .inl (List.mem_cons_of_mem t h)
      · exact .inr (by simpa [hut] using h)
  · intro u hu
    rcases hu with hu | hu
    · rcases List.mem_cons.mp hu with rfl | hu
      · exact ok.known u (.inr (List.mem_append_right xs List.mem_cons_self))
      · exact ok.known u (.inl hu)
    · exact ok.known u (.inr (ok.inside hu).1)

/-- Who is still queued was queued, and is not the thread that was woken. -/
theorem WaitersOk.queued (ok : WaitersOk s wait queue) (first : queue o = t :: rest) {p : Nat}
    (member : u ∈ if p = o then rest else queue p) : u ∈ queue p ∧ u ≠ t := by
  by_cases hp : p = o
  · rw [if_pos hp] at member
    have queueRing := ok.ring o
    rw [first] at queueRing
    have notHere : t ∉ rest := by
      intro ht
      have blockMem : WaitNode.waitBlock t 0 ∈ blocks rest := mem_blocks.mpr ht
      exact (List.nodup_cons.mp (List.nodup_cons.mp queueRing.1).2).1 blockMem
    exact ⟨by rw [hp, first]; exact List.mem_cons_of_mem t member, fun h => notHere (h ▸ member)⟩
  · rw [if_neg hp] at member
    exact ⟨member, fun h => hp (ok.once (h ▸ member) (first ▸ List.mem_cons_self))⟩

/-- The thread's wait block leaves the queue of its object. -/
theorem WaitersOk.unwaited (ok : WaitersOk s (xs ++ t :: ys) queue) (first : queue o = t :: rest) :
    WaitersOk (s.unwaited inc t) (xs ++ ys) fun p => if p = o then rest else queue p := by
  have queueRing := ok.ring o
  rw [first] at queueRing
  refine ⟨?_, ?_, ?_, ?_⟩
  · intro p
    by_cases hp : p = o
    · rw [if_pos hp, hp]
      have headRing : Ring s.waiters (.waitListHead o) ([] ++ .waitBlock t 0 :: blocks rest) := queueRing
      exact ring_unlink headRing
    · rw [if_neg hp]
      have others := queues_apart ok hp
      rw [first] at others
      exact ring_unlink_frame queueRing (by simp [blocks]) (ok.ring p) others
  · intro p u hu
    obtain ⟨was, hut⟩ := ok.queued first hu
    have waits := ok.waiting p u was
    simpa [hut] using waits
  · intro p u hu
    obtain ⟨was, hut⟩ := ok.queued first hu
    rw [unwaited_other hut]
    exact ok.blocked p u was
  · intro p q u hp hq
    exact ok.once (ok.queued first hp).1 (ok.queued first hq).1

theorem StacksOk.unwaited (ok : StacksOk s) (waits : (s.thread t).state = .wait) : StacksOk (s.unwaited inc t) := by
  refine ⟨?_, ?_, ?_, ok.currentKnown⟩
  · intro u hu exiting
    by_cases hut : u = t
    · have was : (s.thread u).exiting = true := by simpa [SchedState.unwaited, hut] using exiting
      have dead := ok.exitingDead u hu was
      simp [hut, waits] at dead
    · rw [unwaited_other hut] at exiting ⊢
      exact ok.exitingDead u hu exiting
  · intro u hu away startup
    have stack : ((s.unwaited inc t).thread u).kernelStack = (s.thread u).kernelStack ∧
        ((s.unwaited inc t).thread u).justInitialized = (s.thread u).justInitialized := by
      by_cases hut : u = t <;> simp [SchedState.unwaited, hut]
    rw [stack.1] at startup
    rw [stack.2]
    exact ok.fresh u hu away startup
  · intro u hu away exits
    by_cases hut : u = t
    · have was : (s.thread u).kernelStack = .exitThread := by simpa [SchedState.unwaited, hut] using exits
      have dead := ok.exited u hu away was
      simp [hut, waits] at dead
    · rw [unwaited_other hut] at exits ⊢
      exact ok.exited u hu away exits

/-- Waking the first waiter of an object. Its wait block keeps the link to the next one. -/
theorem wake_first (checked : Bool) (inc : BitVec 16) (ok : Settled s ready wait queue) (first : queue o = t :: rest) :
    pspUnwaitThread checked s t inc = .ok (s.unwaited inc t) ∧
      Settled (s.unwaited inc t) (t :: ready) (wait.erase t) (fun p => if p = o then rest else queue p) ∧
      (s.unwaited inc t).waiters.flink (.waitBlock t 0) = s.waiters.flink (.waitBlock t 0) := by
  have member : t ∈ queue o := by simp [first]
  obtain ⟨state, other⟩ := ok.waiter_waits member
  obtain ⟨kind, count⟩ := ok.waiters.blocked o t member
  obtain ⟨xs, ys, -, split, rest_eq⟩ := List.exists_erase_eq (ok.waiters.waiting o t member)
  rw [rest_eq]
  subst split
  have alive : (s.thread t).state ≠ .terminated := by simp [state]
  have blocksCode : removeWaitBlocks s.waiters t 1 = s.waiters.unlink (.waitBlock t 0) := rfl
  refine ⟨?_, ⟨ok.lists.unwaited, ok.waiters.unwaited first, ok.stacksOk.unwaited state, ?_, ?_⟩, ?_⟩
  · simp only [pspUnwaitThread, alive, ne_eq, not_false_eq_true, decide_true, assert_true, ok_bind, kind,
      if_true, count, blocksCode]
    rfl
  · intro u hu
    by_cases hut : u = t
    · rw [hut, unwaited_own]
      exact ⟨fun h => by simp at h, fun h => absurd h other⟩
    · rw [unwaited_other hut]
      exact ok.running u ((List.mem_cons.mp hu).resolve_left hut)
  · have kept : (s.unwaited inc t).current = s.current := unwaited_other (Ne.symm other)
    rw [kept]
    exact ok.currentPlace.imp_right (List.mem_cons_of_mem t)
  · have queueRing := ok.waiters.ring o
    rw [first] at queueRing
    have previous : s.waiters.blink (.waitBlock t 0) = .waitListHead o := queueRing.2.2.1
    change (s.waiters.unlink (.waitBlock t 0)).flink (.waitBlock t 0) = _
    rw [unlink_flink, previous, if_neg (by simp)]

/-- One round of the walk wakes the first waiter. The walk ends behind the last waiter, and behind the first if the event
wakes only one. -/
theorem kiSetEventFrom_first (checked : Bool) (inc : BitVec 16) (ok : Settled s ready wait queue)
    (first : queue o = t :: rest) (fuel : Nat) :
    kiSetEventFrom checked o inc (fuel + 1) (.waitBlock t 0) s =
      if (s.header o).objectType = .synchronizationEvent then .ok (s.unwaited inc t)
      else match rest with
        | [] => .ok (s.unwaited inc t)
        | r :: _ => kiSetEventFrom checked o inc fuel (.waitBlock r 0) (s.unwaited inc t) := by
  have member : t ∈ queue o := by simp [first]
  obtain ⟨state, _⟩ := ok.waiter_waits member
  have satisfied := (ok.waiters.blocked o t member).2
  obtain ⟨woken, -, link⟩ := wake_first checked inc ok first
  have kind : ((s.unwaited inc t).header o).objectType = (s.header o).objectType := rfl
  have ring := ok.waiters.ring o
  rw [first] at ring
  rw [kiSetEventFrom, if_neg (not_not_intro state)]
  simp only [satisfied, or_true, if_true, woken, ok_bind, link, kind]
  cases rest with
  | nil =>
    have last : s.waiters.flink (.waitBlock t 0) = .waitListHead o := ring.2.2.2.1
    rw [last, if_pos rfl]
  | cons r rest =>
    have next : s.waiters.flink (.waitBlock t 0) = .waitBlock r 0 := ring.2.2.2.1
    rw [next, if_neg (by simp : ¬WaitNode.waitBlock r 0 = .waitListHead o)]

end wake

theorem kiSetEventFrom_settled (checked : Bool) (inc : BitVec 16) {rest : List Nat} {fuel o t : Nat}
    {s : SchedState} {ready wait : List Nat} {queue : Nat → List Nat} (ok : Settled s ready wait queue)
    (first : queue o = t :: rest) (room : rest.length < fuel) :
    ∃ u ready' wait' queue', kiSetEventFrom checked o inc fuel (.waitBlock t 0) s = .ok u ∧
      Settled u ready' wait' queue' := by
  induction rest generalizing fuel s t ready wait queue with
  | nil =>
    obtain ⟨fuel, rfl⟩ := Nat.exists_eq_succ_of_ne_zero (Nat.ne_of_gt room)
    obtain ⟨-, after, -⟩ := wake_first checked inc ok first
    refine ⟨_, _, _, _, ?_, after⟩
    rw [Nat.succ_eq_add_one, kiSetEventFrom_first checked inc ok first, ite_self]
  | cons r rest ih =>
    cases fuel with
    | zero => exact absurd room (Nat.not_lt_zero _)
    | succ fuel =>
      obtain ⟨-, after, -⟩ := wake_first checked inc ok first
      rw [kiSetEventFrom_first checked inc ok first]
      by_cases single : (s.header o).objectType = .synchronizationEvent
      · exact ⟨_, _, _, _, if_pos single, after⟩
      · rw [if_neg single]
        exact ih after (if_pos rfl) (Nat.lt_of_succ_lt_succ room)

theorem Settled.setSignaled {s : SchedState} {ready wait : List Nat} {queue : Nat → List Nat}
    (ok : Settled s ready wait queue) (o : Nat) (b : Bool) : Settled (s.setSignaled o b) ready wait queue :=
  ⟨ok.lists.congr rfl rfl fun _ => rfl, ok.waiters.congr rfl fun _ _ _ => ⟨rfl, rfl⟩,
    ⟨ok.stacksOk.exitingDead, ok.stacksOk.fresh, ok.stacksOk.exited, ok.stacksOk.currentKnown⟩, ok.running,
    ok.currentPlace⟩

theorem Settled.setLock {s : SchedState} {ready wait : List Nat} {queue : Nat → List Nat}
    (ok : Settled s ready wait queue) (b : Bool) :
    Settled { s with schedulerLock := b } ready wait queue :=
  ⟨ok.lists.congr rfl rfl fun _ => rfl, ok.waiters.congr rfl fun _ _ _ => ⟨rfl, rfl⟩,
    ⟨ok.stacksOk.exitingDead, ok.stacksOk.fresh, ok.stacksOk.exited, ok.stacksOk.currentKnown⟩, ok.running,
    ok.currentPlace⟩

theorem queue_length {s : SchedState} {ready wait : List Nat} {queue : Nat → List Nat}
    (ok : Settled s ready wait queue) (o : Nat) : (queue o).length < listFuel s := by
  have distinct : (queue o).Nodup := (List.nodup_cons.mp (ok.waiters.ring o).1).2.of_map _
  exact Nat.lt_succ_of_le (distinct.length_le_of_subset fun t ht =>
    ok.lists.known t (.inr (ok.waiters.waiting o t ht)))

theorem kiSetEvent_idle (checked : Bool) (inc : BitVec 16) {o : Nat} {s : SchedState} {ready wait : List Nat}
    {queue : Nat → List Nat} (ok : Settled s ready wait queue) (nobody : queue o = []) :
    kiSetEvent checked s o inc = .ok ((s.header o).signaledState, s.setSignaled o true) := by
  have ring := (ok.setSignaled o true).waiters.ring o
  rw [nobody] at ring
  have empty : isListEmpty (s.setSignaled o true).waiters (.waitListHead o) = true := (isListEmpty_iff ring).mpr rfl
  simp [kiSetEvent, satisfyWaiters, empty]

/-- If somebody waits, the walk begins at the first waiter. -/
theorem kiSetEvent_walk (checked : Bool) (inc : BitVec 16) {o t : Nat} {rest : List Nat} {s : SchedState}
    {ready wait : List Nat} {queue : Nat → List Nat} (ok : Settled s ready wait queue) (first : queue o = t :: rest) :
    kiSetEvent checked s o inc =
        (kiSetEventFrom checked o inc (listFuel s) (.waitBlock t 0) (s.setSignaled o true)).map
          ((s.header o).signaledState, ·) ∧ rest.length < listFuel s := by
  have okS := ok.setSignaled o true
  have ring := okS.waiters.ring o
  have room := queue_length okS o
  rw [first] at ring room
  have filled : isListEmpty (s.setSignaled o true).waiters (.waitListHead o) = false := by
    rw [← Bool.not_eq_true, isListEmpty_iff ring]
    simp [blocks]
  have start : (s.setSignaled o true).waiters.flink (.waitListHead o) = .waitBlock t 0 := ring.2.1
  refine ⟨?_, Nat.lt_of_succ_lt room⟩
  simp only [kiSetEvent, satisfyWaiters, filled, start, Bool.not_false, if_true]
  change (kiSetEventFrom checked o inc (listFuel s) (.waitBlock t 0) (s.setSignaled o true) >>= fun u =>
    .ok ((s.header o).signaledState, u)) = _
  cases kiSetEventFrom checked o inc (listFuel s) (.waitBlock t 0) (s.setSignaled o true) <;> rfl

theorem kiSetEvent_settled (checked : Bool) (inc : BitVec 16) (o : Nat) {s : SchedState}
    {ready wait : List Nat} {queue : Nat → List Nat} (ok : Settled s ready wait queue) :
    ∃ u ready' wait' queue', kiSetEvent checked s o inc = .ok ((s.header o).signaledState, u) ∧
      Settled u ready' wait' queue' := by
  have okS := ok.setSignaled o true
  cases h : queue o with
  | nil => exact ⟨_, _, _, _, kiSetEvent_idle checked inc ok h, okS⟩
  | cons t rest =>
    obtain ⟨start, room⟩ := kiSetEvent_walk checked inc ok h
    obtain ⟨u, ready', wait', queue', code, after⟩ := kiSetEventFrom_settled checked inc okS h room
    exact ⟨u, ready', wait', queue', by rw [start, code]; rfl, after⟩

theorem keSetEvent_settled (checked : Bool) (inc : BitVec 16) (o : Nat) {s : SchedState}
    {ready wait : List Nat} {queue : Nat → List Nat} (ok : Settled s ready wait queue)
    (unlocked : s.schedulerLock = false) :
    ∃ u ready' wait' queue', keSetEvent checked s o inc = .ok ((s.header o).signaledState, u) ∧
      Settled u ready' wait' queue' ∧ u.schedulerLock = false := by
  obtain ⟨u, ready', wait', queue', code, after⟩ := kiSetEvent_settled checked inc o (ok.setLock true)
  refine ⟨pspUnlockSchedulerDatabase u, ready', wait', queue', ?_, after.setLock false, rfl⟩
  simp [keSetEvent, pspLockSchedulerDatabase, unlocked, code]

/-- A thread that is not exiting runs, from the ready list. -/
theorem Settled.current_ready {s : SchedState} {ready wait : List Nat} {queue : Nat → List Nat}
    (ok : Settled s ready wait queue) (stays : s.current.exiting = false) :
    s.currentThread ∈ ready ∧ s.current.state = .running := by
  have here : s.currentThread ∈ ready := by
    rcases ok.currentPlace with exiting | here
    · simp [stays] at exiting
    · exact here
  exact ⟨here, (ok.running _ here).mpr rfl⟩

/-- What is left of a list when one entry is taken out of it. -/
theorem mem_rest {xs ys ts : List Nat} {t u : Nat} (distinct : ts.Nodup) (split : ts = xs ++ t :: ys) :
    u ∈ xs ++ ys ↔ u ∈ ts ∧ u ≠ t := by
  subst split
  have perm : (xs ++ t :: ys).Perm (t :: (xs ++ ys)) := List.perm_middle
  have notHere := (List.nodup_cons.mp (perm.nodup_iff.mp distinct)).1
  rw [perm.mem_iff, List.mem_cons]
  constructor
  · intro hu
    refine ⟨.inr hu, ?_⟩
    rintro rfl
    exact notHere hu
  · rintro ⟨hu | hu, other⟩
    · exact absurd hu other
    · exact hu

/-- The current thread goes to the end of the wait list. -/
theorem to_wait_list {s u : SchedState} {ready wait : List Nat} {queue queue' : Nat → List Nat}
    (ok : Settled s ready wait queue) (stays : s.current.exiting = false)
    (sched : u.sched =
      (s.sched.unlink (.thread s.currentThread)).insertBefore .psWaitListHead (.thread s.currentThread))
    (list : u.threadList = s.threadList) (current : u.currentThread = s.currentThread)
    (same : ∀ t, t ≠ s.currentThread → u.thread t = s.thread t)
    (own : (u.thread s.currentThread).state = .wait)
    (kept : (u.thread s.currentThread).exiting = (s.thread s.currentThread).exiting)
    (waiters : WaitersOk u (wait ++ [s.currentThread]) queue') :
    ∃ front, Switching u front (wait ++ [s.currentThread]) queue' := by
  obtain ⟨here, _⟩ := ok.current_ready stays
  obtain ⟨xs, ys, split⟩ := List.append_of_mem here
  have source := ok.lists.readyRing
  rw [split, threads_split] at source
  have apart : ∀ x ∈ SchedNode.psWaitListHead :: threads wait,
      x ∉ SchedNode.psReadyListHead :: (threads xs ++ .thread s.currentThread :: threads ys) := by
    have both := ok.lists.rings_apart
    rw [split, threads_split] at both
    exact fun x hw hr => both x hr hw
  obtain ⟨readyRing, waitRing⟩ := rings_move_tail source ok.lists.waitRing apart
  have rest : ∀ t, t ∈ xs ++ ys ↔ t ∈ ready ∧ t ≠ s.currentThread :=
    fun t => mem_rest ok.lists.ready_nodup split
  have waitsOther : ∀ t ∈ wait, t ≠ s.currentThread := by
    rintro t ht rfl
    exact ok.lists.disjoint _ here ht
  refine ⟨xs ++ ys, ⟨?_, ?_, ?_, ?_, ?_, ?_, ?_⟩, waiters, ⟨?_, ?_, ?_, ?_⟩, ?_⟩
  · rw [sched, threads, List.map_append]
    exact readyRing
  · rw [sched, threads, List.map_append]
    exact waitRing
  · intro t ht
    obtain ⟨inReady, other⟩ := (rest t).mp ht
    simp [ok.lists.disjoint t inReady, other]
  · intro t ht
    obtain ⟨inReady, other⟩ := (rest t).mp ht
    rw [same t other]
    exact ok.lists.readyState t inReady
  · intro t ht
    rcases List.mem_append.mp ht with ht | ht
    · rw [same t (waitsOther t ht)]
      exact ok.lists.waitState t ht
    · have hc : t = s.currentThread := by simpa using ht
      exact hc ▸ own
  · intro t ht live
    by_cases hc : t = s.currentThread
    · exact .inr (by simp [hc])
    · rw [same t hc] at live
      rcases ok.lists.placed t (list ▸ ht) live with h | h
      · exact .inl ((rest t).mpr ⟨h, hc⟩)
      · exact .inr (List.mem_append_left _ h)
  · intro t ht
    rw [list]
    rcases ht with ht | ht
    · exact ok.lists.known t (.inl ((rest t).mp ht).1)
    · rcases List.mem_append.mp ht with ht | ht
      · exact ok.lists.known t (.inr ht)
      · have hc : t = s.currentThread := by simpa using ht
        exact hc ▸ ok.stacksOk.currentKnown
  · intro t ht exiting
    by_cases hc : t = s.currentThread
    · rw [hc, kept] at exiting
      exact absurd exiting (by simpa [SchedState.current] using stays)
    · rw [same t hc] at exiting ⊢
      exact ok.stacksOk.exitingDead t (list ▸ ht) exiting
  · intro t ht away startup
    rw [current] at away
    rw [same t away] at startup ⊢
    exact ok.stacksOk.fresh t (list ▸ ht) away startup
  · intro t ht away exits
    rw [current] at away
    rw [same t away] at exits ⊢
    exact ok.stacksOk.exited t (list ▸ ht) away exits
  · rw [current, list]
    exact ok.stacksOk.currentKnown
  · intro t ht
    obtain ⟨inReady, other⟩ := (rest t).mp ht
    rw [same t other]
    rcases ok.lists.readyState t inReady with state | state
    · exact state
    · exact absurd ((ok.running t inReady).mp state) other

theorem blockOn_switching {s : SchedState} {ready wait : List Nat} {queue : Nat → List Nat} (o : Nat)
    (ok : Settled s ready wait queue) (stays : s.current.exiting = false) :
    ∃ front queue', Switching (blockOn s o) front (wait ++ [s.currentThread]) queue' := by
  obtain ⟨here, _⟩ := ok.current_ready stays
  have unqueued : ∀ p, s.currentThread ∉ queue p := fun p h => (ok.waiter_waits h).2 rfl
  have unblocked : ∀ p, WaitNode.waitBlock s.currentThread 0 ∉ WaitNode.waitListHead p :: blocks (queue p) := by
    intro p h
    rcases List.mem_cons.mp h with h | h
    · cases h
    · exact unqueued p (mem_blocks.mp h)
  have same : ∀ t, t ≠ s.currentThread → (blockOn s o).thread t = s.thread t := fun t ht => if_neg ht
  let queue' : Nat → List Nat := fun p => if p = o then queue o ++ [s.currentThread] else queue p
  have inQueue : ∀ p t, t ∈ queue' p → t ∈ queue p ∨ (p = o ∧ t = s.currentThread) := by
    intro p t ht
    by_cases hp : p = o
    · simp only [queue', hp, if_true, List.mem_append, List.mem_singleton] at ht
      exact ht.imp (fun h => hp ▸ h) fun h => ⟨hp, h⟩
    · simp only [queue', hp, if_false] at ht
      exact .inl ht
  have waiters : WaitersOk (blockOn s o) (wait ++ [s.currentThread]) queue' := by
    refine ⟨?_, ?_, ?_, ?_⟩
    · intro p
      by_cases hp : p = o
      · simp only [queue', hp, if_true, blocks, List.map_append]
        exact ring_insertTail (ok.waiters.ring o) (unblocked o)
      · simp only [queue', hp, if_false]
        exact ring_insertBefore_frame (ok.waiters.ring o) (ok.waiters.ring p) (queues_apart ok.waiters hp)
          (unblocked p)
    · intro p t ht
      rcases inQueue p t ht with h | ⟨_, rfl⟩
      · exact List.mem_append_left _ (ok.waiters.waiting p t h)
      · simp
    · intro p t ht
      by_cases hc : t = s.currentThread
      · simp [blockOn, hc]
      · rcases inQueue p t ht with h | ⟨_, h⟩
        · rw [same t hc]
          exact ok.waiters.blocked p t h
        · exact absurd h hc
    · intro p q t hp hq
      rcases inQueue p t hp with inP | ⟨isP, ownP⟩ <;> rcases inQueue q t hq with inQ | ⟨isQ, ownQ⟩
      · exact ok.waiters.once inP inQ
      · exact absurd (ownQ ▸ inP) (unqueued p)
      · exact absurd (ownP ▸ inQ) (unqueued q)
      · exact isP.trans isQ.symm
  obtain ⟨front, switching⟩ := to_wait_list (u := blockOn s o) ok stays rfl rfl rfl same
    (by simp [blockOn]) (by simp [blockOn]) waiters
  exact ⟨front, queue', switching⟩

theorem WaitersOk.extend {s : SchedState} {wait : List Nat} {queue : Nat → List Nat}
    (ok : WaitersOk s wait queue) (t : Nat) : WaitersOk s (wait ++ [t]) queue :=
  ⟨ok.ring, fun o u hu => List.mem_append_left _ (ok.waiting o u hu), ok.blocked, ok.once⟩

theorem delay_switching {s : SchedState} {ready wait : List Nat} {queue : Nat → List Nat}
    (ok : Settled s ready wait queue) (stays : s.current.exiting = false) (ticks : BitVec 32) :
    ∃ front, Switching (delayCurrent s ticks) front (wait ++ [s.currentThread]) queue := by
  refine to_wait_list ok stays rfl rfl rfl (fun t ht => if_neg ht) (by simp [delayCurrent])
    (by simp [delayCurrent]) ?_
  refine (ok.waiters.extend s.currentThread).congr rfl ?_
  intro o t ht
  simp [delayCurrent, (ok.waiter_waits ht).2]

theorem quantumEnd_switching {s : SchedState} {ready wait : List Nat} {queue : Nat → List Nat}
    (ok : Settled s ready wait queue) (stays : s.current.exiting = false) :
    Switching (s.setThread s.currentThread fun r => { r with state := .ready }) ready wait queue := by
  obtain ⟨here, _⟩ := ok.current_ready stays
  have other : ∀ t, t ≠ s.currentThread →
      (s.setThread s.currentThread fun r => { r with state := .ready }).thread t = s.thread t :=
    fun t ht => if_neg ht
  have state : ∀ t ∈ ready,
      ((s.setThread s.currentThread fun r => { r with state := .ready }).thread t).state = .ready := by
    intro t ht
    by_cases hc : t = s.currentThread
    · simp [hc]
    · rw [other t hc]
      exact (ok.lists.readyState t ht).resolve_right fun h => hc ((ok.running t ht).mp h)
  refine ⟨⟨ok.lists.readyRing, ok.lists.waitRing, ok.lists.disjoint, fun t ht => .inl (state t ht), ?_, ?_,
    ok.lists.known⟩, ok.waiters.congr rfl ?_, ⟨?_, ?_, ?_, ok.stacksOk.currentKnown⟩, state⟩
  · intro t ht
    rw [other t fun h => ok.lists.disjoint t (h ▸ here) ht]
    exact ok.lists.waitState t ht
  · intro t ht live
    by_cases hc : t = s.currentThread
    · exact .inl (hc ▸ here)
    · exact ok.lists.placed t ht (other t hc ▸ live)
  · intro o t ht
    rw [other t (ok.waiter_waits ht).2]
    exact ⟨rfl, rfl⟩
  · intro t ht exiting
    by_cases hc : t = s.currentThread
    · simp only [hc, setThread_thread, if_true] at exiting
      exact absurd exiting (by simpa [SchedState.current] using stays)
    · rw [other t hc] at exiting ⊢
      exact ok.stacksOk.exitingDead t ht exiting
  · intro t ht away startup
    rw [other t away] at startup ⊢
    exact ok.stacksOk.fresh t ht away startup
  · intro t ht away exits
    rw [other t away] at exits ⊢
    exact ok.stacksOk.exited t ht away exits

theorem Settled.current_dead {s : SchedState} {ready wait : List Nat} {queue : Nat → List Nat}
    (ok : Settled s ready wait queue) (leaves : s.current.exiting = true) : s.current.state = .terminated :=
  ok.stacksOk.exitingDead _ ok.stacksOk.currentKnown leaves

/-- A thread in the tail of PsExitThread is in no list, so the others are all ready. -/
theorem exitSwap_switching {s : SchedState} {ready wait : List Nat} {queue : Nat → List Nat}
    (ok : Settled s ready wait queue) (leaves : s.current.exiting = true) : Switching s ready wait queue := by
  have dead := ok.current_dead leaves
  refine ⟨ok.lists, ok.waiters, ok.stacksOk, ?_⟩
  intro t ht
  refine (ok.lists.readyState t ht).resolve_right fun h => ?_
  have hc := (ok.running t ht).mp h
  rw [hc] at h
  exact absurd (h.symm.trans dead) (by decide)

/-- A thread that is terminated leaves the list it was in. -/
theorem lists_remove {s u : SchedState} {ready wait : List Nat} {t : Nat} (ok : ListsOk s ready wait)
    (member : t ∈ ready ∨ t ∈ wait) (sched : u.sched = s.sched.unlink (.thread t))
    (list : u.threadList = s.threadList) (same : ∀ v, v ≠ t → u.thread v = s.thread v)
    (dead : (u.thread t).state = .terminated) : ListsOk u (ready.erase t) (wait.erase t) := by
  have inReady : ∀ v, v ∈ ready.erase t ↔ v ≠ t ∧ v ∈ ready := fun v => ok.ready_nodup.mem_erase_iff
  have inWait : ∀ v, v ∈ wait.erase t ↔ v ≠ t ∧ v ∈ wait := fun v => ok.wait_nodup.mem_erase_iff
  have rings : Ring u.sched .psReadyListHead (threads (ready.erase t)) ∧
      Ring u.sched .psWaitListHead (threads (wait.erase t)) := by
    have apart := ok.rings_apart
    rcases member with here | here
    · obtain ⟨xs, ys, _, split, rest⟩ := List.exists_erase_eq here
      have ring := ok.readyRing
      rw [split, threads_split] at ring
      have gone : wait.erase t = wait := List.erase_of_not_mem (ok.disjoint t here)
      rw [sched, rest, gone, threads, List.map_append]
      refine ⟨ring_unlink ring, ring_unlink_frame ok.readyRing (mem_threads.mpr here) ok.waitRing ?_⟩
      exact fun x hw hr => apart x hr hw
    · obtain ⟨xs, ys, _, split, rest⟩ := List.exists_erase_eq here
      have ring := ok.waitRing
      rw [split, threads_split] at ring
      have gone : ready.erase t = ready := List.erase_of_not_mem fun h => ok.disjoint t h here
      rw [sched, rest, gone]
      refine ⟨ring_unlink_frame ok.waitRing (mem_threads.mpr here) ok.readyRing apart, ?_⟩
      rw [threads, List.map_append]
      exact ring_unlink ring
  refine ⟨rings.1, rings.2, ?_, ?_, ?_, ?_, ?_⟩
  · intro v hr hw
    exact ok.disjoint v ((inReady v).mp hr).2 ((inWait v).mp hw).2
  · intro v hv
    rw [same v ((inReady v).mp hv).1]
    exact ok.readyState v ((inReady v).mp hv).2
  · intro v hv
    rw [same v ((inWait v).mp hv).1]
    exact ok.waitState v ((inWait v).mp hv).2
  · intro v hv live
    have hvt : v ≠ t := by
      rintro rfl
      exact live dead
    rw [same v hvt] at live
    exact (ok.placed v (list ▸ hv) live).imp (fun h => (inReady v).mpr ⟨hvt, h⟩) fun h => (inWait v).mpr ⟨hvt, h⟩
  · intro v hv
    rw [list]
    exact ok.known v (hv.imp (fun h => ((inReady v).mp h).2) fun h => ((inWait v).mp h).2)

theorem exit_settled (code : BitVec 32) {s u : SchedState} {ready wait : List Nat} {queue : Nat → List Nat}
    (ok : Settled s ready wait queue) (stays : s.current.exiting = false)
    (after : u = { s with sched := removeEntryList s.sched (.thread s.currentThread) }.setThread s.currentThread
      fun r => { r with exitCode := code, state := .terminated, exiting := true }) :
    Settled u (ready.erase s.currentThread) wait queue := by
  obtain ⟨here, _⟩ := ok.current_ready stays
  have same : ∀ t, t ≠ s.currentThread → u.thread t = s.thread t := fun t ht => by subst after; exact if_neg ht
  have dead : (u.thread s.currentThread).state = .terminated := by simp [after]
  have list : u.threadList = s.threadList := by rw [after]; rfl
  have current : u.currentThread = s.currentThread := by rw [after]; rfl
  have gone : wait.erase s.currentThread = wait := List.erase_of_not_mem (ok.lists.disjoint _ here)
  have lists := lists_remove ok.lists (.inl here) (by rw [after]; rfl) list same dead
  rw [gone] at lists
  refine ⟨lists, ok.waiters.congr (by rw [after]; rfl) ?_, ⟨?_, ?_, ?_, ?_⟩, ?_, ?_⟩
  · intro o t ht
    rw [same t (ok.waiter_waits ht).2]
    exact ⟨rfl, rfl⟩
  · intro t ht exiting
    by_cases hc : t = s.currentThread
    · exact hc ▸ dead
    · rw [same t hc] at exiting ⊢
      exact ok.stacksOk.exitingDead t (list ▸ ht) exiting
  · intro t ht away startup
    rw [current] at away
    rw [same t away] at startup ⊢
    exact ok.stacksOk.fresh t (list ▸ ht) away startup
  · intro t ht away exits
    rw [current] at away
    rw [same t away] at exits ⊢
    exact ok.stacksOk.exited t (list ▸ ht) away exits
  · rw [current, list]
    exact ok.stacksOk.currentKnown
  · intro t ht
    obtain ⟨other, inReady⟩ := ok.lists.ready_nodup.mem_erase_iff.mp ht
    rw [current, same t other]
    exact ok.running t inReady
  · left
    simp [SchedState.current, after]

theorem create_settled {s u : SchedState} {ready wait : List Nat} {queue : Nat → List Nat} {t : Nat}
    (ok : Settled s ready wait queue) (new : t ∉ s.threadList)
    (sched : u.sched = insertHeadList s.sched .psReadyListHead (.thread t))
    (list : u.threadList = s.threadList ++ [t]) (waiters : u.waiters = s.waiters)
    (current : u.currentThread = s.currentThread) (same : ∀ v, v ≠ t → u.thread v = s.thread v)
    (state : (u.thread t).state = .ready) (just : (u.thread t).justInitialized = true)
    (stays : (u.thread t).exiting = false) (stack : (u.thread t).kernelStack = .baseThreadStartup) :
    Settled u (t :: ready) wait queue := by
  have known : ∀ v, v ∈ ready ∨ v ∈ wait → v ≠ t := by
    rintro v hv rfl
    exact new (ok.lists.known v hv)
  have notCurrent : s.currentThread ≠ t := fun h => new (h ▸ ok.stacksOk.currentKnown)
  have old : ∀ v ∈ u.threadList, v ≠ t → v ∈ s.threadList := by
    intro v hv hvt
    rw [list] at hv
    simpa [hvt] using hv
  have outside : SchedNode.thread t ∉ SchedNode.psReadyListHead :: threads ready := by
    intro h
    rcases List.mem_cons.mp h with h | h
    · cases h
    · exact known t (.inl (mem_threads.mp h)) rfl
  have outsideWait : SchedNode.thread t ∉ SchedNode.psWaitListHead :: threads wait := by
    intro h
    rcases List.mem_cons.mp h with h | h
    · cases h
    · exact known t (.inr (mem_threads.mp h)) rfl
  refine ⟨⟨?_, ?_, ?_, ?_, ?_, ?_, ?_⟩, ok.waiters.congr waiters ?_, ⟨?_, ?_, ?_, ?_⟩, ?_, ?_⟩
  · rw [sched, insertHeadList_eq]
    exact ring_insertHead ok.lists.readyRing outside
  · rw [sched, insertHeadList_eq]
    exact ring_insertAfter_frame ok.lists.readyRing (by simp) ok.lists.waitRing
      (fun x hw hr => ok.lists.rings_apart x hr hw) outsideWait
  · intro v hv hw
    rcases List.mem_cons.mp hv with rfl | hv
    · exact known v (.inr hw) rfl
    · exact ok.lists.disjoint v hv hw
  · intro v hv
    by_cases hvt : v = t
    · exact .inl (hvt ▸ state)
    · rw [same v hvt]
      exact ok.lists.readyState v ((List.mem_cons.mp hv).resolve_left hvt)
  · intro v hv
    rw [same v (known v (.inr hv))]
    exact ok.lists.waitState v hv
  · intro v hv live
    by_cases hvt : v = t
    · exact .inl (by simp [hvt])
    · rw [same v hvt] at live
      exact (ok.lists.placed v (old v hv hvt) live).imp_left (List.mem_cons_of_mem t)
  · intro v hv
    rw [list]
    by_cases hvt : v = t
    · simp [hvt]
    · refine List.mem_append_left _ (ok.lists.known v (hv.imp_left fun h => ?_))
      exact (List.mem_cons.mp h).resolve_left hvt
  · intro o v hv
    rw [same v (known v (.inr (ok.waiters.waiting o v hv)))]
    exact ⟨rfl, rfl⟩
  · intro v hv exiting
    by_cases hvt : v = t
    · rw [hvt, stays] at exiting
      cases exiting
    · rw [same v hvt] at exiting ⊢
      exact ok.stacksOk.exitingDead v (old v hv hvt) exiting
  · intro v hv away startup
    rw [current] at away
    by_cases hvt : v = t
    · exact hvt ▸ just
    · rw [same v hvt] at startup ⊢
      exact ok.stacksOk.fresh v (old v hv hvt) away startup
  · intro v hv away exits
    rw [current] at away
    by_cases hvt : v = t
    · rw [hvt, stack] at exits
      cases exits
    · rw [same v hvt] at exits ⊢
      exact ok.stacksOk.exited v (old v hv hvt) away exits
  · rw [current, list]
    exact List.mem_append_left _ ok.stacksOk.currentKnown
  · intro v hv
    rw [current]
    by_cases hvt : v = t
    · rw [hvt, state]
      constructor
      · intro h
        cases h
      · exact fun h => absurd h.symm notCurrent
    · rw [same v hvt]
      exact ok.running v ((List.mem_cons.mp hv).resolve_left hvt)
  · have kept : u.current = s.current := by
      rw [SchedState.current, current]
      exact same _ notCurrent
    rw [kept, current]
    exact ok.currentPlace.imp_right (List.mem_cons_of_mem t)

/-- Between two steps: a thread keeps the processor, or PsTerminateThread has kept the lock. -/
inductive Resting (s : SchedState) : Prop
  | free {ready wait : List Nat} {queue : Nat → List Nat} (settled : Settled s ready wait queue)
      (unlocked : s.schedulerLock = false)
  | stuck {ready wait : List Nat} (lists : ListsOk s ready wait) (locked : s.schedulerLock = true)

/-- After a switch: one thread runs, the current one. -/
def RunsAlone (s : SchedState) : Prop :=
  s.currentThread ∈ s.threadList ∧ ∀ t ∈ s.threadList, (s.thread t).state = .running ↔ t = s.currentThread

/-- A section ends with the invariant, or stops the machine because no thread is ready. -/
def Ends (switches : Prop) (r : Result) : Prop :=
  (∃ u, r = .ok u ∧ Resting u ∧ (switches → RunsAlone u)) ∨ r = .error .noReadyThreads ∨ r = .error .stopExecution

theorem Settled.runs_alone {s : SchedState} {ready wait : List Nat} {queue : Nat → List Nat}
    (ok : Settled s ready wait queue) (here : s.currentThread ∈ ready) : RunsAlone s := by
  refine ⟨ok.stacksOk.currentKnown, fun t ht => ⟨fun running => ?_, fun hc => ?_⟩⟩
  · rcases ok.lists.placed t ht (by simp [running]) with inReady | waits
    · exact (ok.running t inReady).mp running
    · exact absurd ((ok.lists.waitState t waits).symm.trans running) (by decide)
  · rw [hc]
    exact (ok.running _ here).mpr rfl

theorem pspSwapThread_ends (checked : Bool) (switches : Prop) {s : SchedState} {ready wait : List Nat}
    {queue : Nat → List Nat} {return_ : SwapReturn} (ok : Switching s ready wait queue)
    (leaves : return_ ≠ .baseThreadStartup) (dead : return_ = .exitThread → s.current.state = .terminated) :
    Ends switches (pspSwapThread checked s return_) := by
  rcases pspSwapThread_cases checked ok leaves dead with ⟨u, code, switched⟩ | ⟨-, halt⟩
  · exact .inl ⟨u, code, .free switched.settled switched.unlocked, fun _ => switched.settled.runs_alone switched.here⟩
  · exact .inr halt

theorem lock_ok {s : SchedState} (unlocked : s.schedulerLock = false) :
    pspLockSchedulerDatabase s = .ok { s with schedulerLock := true } := by
  simp [pspLockSchedulerDatabase, unlocked]

theorem lock_error {s : SchedState} (locked : s.schedulerLock = true) :
    pspLockSchedulerDatabase s = .error .lockHeld := by
  simp [pspLockSchedulerDatabase, locked]

theorem wait_ends (checked : Bool) (o : Nat) {s : SchedState} {ready wait : List Nat} {queue : Nat → List Nat}
    (ok : Settled s ready wait queue) (unlocked : s.schedulerLock = false)
    (stays : s.current.exiting = false) :
    Ends ((s.header o).signaledState = false) (keWaitForSingleObject checked s o) := by
  unfold keWaitForSingleObject
  rw [lock_ok unlocked, ok_bind]
  by_cases signaled : (s.header o).signaledState = true
  · rw [if_pos signaled]
    exact .inl ⟨_, rfl, .free ((ok.setLock true).setLock false) rfl, fun h => by simp [signaled] at h⟩
  · rw [if_neg signaled]
    obtain ⟨front, queue', switching⟩ := blockOn_switching o (ok.setLock true) stays
    exact pspSwapThread_ends checked _ switching (by decide) (fun h => by cases h)

theorem Settled.setHolders {s : SchedState} {ready wait : List Nat} {queue : Nat → List Nat}
    (ok : Settled s ready wait queue) (holders : Nat → List Nat) :
    Settled { s with holders := holders } ready wait queue :=
  ⟨ok.lists.congr rfl rfl fun _ => rfl, ok.waiters.congr rfl fun _ _ _ => ⟨rfl, rfl⟩,
    ⟨ok.stacksOk.exitingDead, ok.stacksOk.fresh, ok.stacksOk.exited, ok.stacksOk.currentKnown⟩, ok.running,
    ok.currentPlace⟩

theorem acquire_ends (checked : Bool) (m : Nat) {s : SchedState} {ready wait : List Nat}
    {queue : Nat → List Nat} (ok : Settled s ready wait queue) (unlocked : s.schedulerLock = false)
    (stays : s.current.exiting = false) :
    Ends (s.kiInitializationPhase ≠ 0 ∧ (s.header m).signaledState = false) (exAcquireMutex checked s m) := by
  unfold exAcquireMutex
  by_cases early : s.kiInitializationPhase = 0
  · dsimp only
    rw [if_pos early]
    exact .inl ⟨_, rfl, .free (ok.setHolders _) unlocked, fun h => absurd early h.1⟩
  · dsimp only
    rw [if_neg early, lock_ok unlocked, ok_bind]
    by_cases signaled : (s.header m).signaledState = true
    · rw [if_pos signaled]
      refine .inl ⟨_, rfl, .free ((((ok.setLock true).setSignaled m false).setLock false).setHolders _) rfl, ?_⟩
      intro h
      simp [signaled] at h
    · rw [if_neg signaled]
      obtain ⟨front, queue', switching⟩ := blockOn_switching m (ok.setLock true) stays
      exact pspSwapThread_ends checked _ switching (by simp) (fun h => by cases h)

theorem delay_ends (checked : Bool) (n : BitVec 32) {s : SchedState} {ready wait : List Nat}
    {queue : Nat → List Nat} (ok : Settled s ready wait queue) (unlocked : s.schedulerLock = false)
    (stays : s.current.exiting = false) : Ends True (psDelayThreadExecution checked s n) := by
  obtain ⟨front, switching⟩ := delay_switching (ok.setLock true) stays n
  unfold psDelayThreadExecution
  rw [lock_ok unlocked, ok_bind]
  exact pspSwapThread_ends checked True switching (by decide) (fun h => by cases h)

theorem quantumEnd_ends (checked : Bool) {s : SchedState} {ready wait : List Nat} {queue : Nat → List Nat}
    (ok : Settled s ready wait queue) (unlocked : s.schedulerLock = false)
    (stays : s.current.exiting = false) : Ends True (psQuantumEnd checked s) := by
  have switching := quantumEnd_switching (ok.setLock true) stays
  unfold psQuantumEnd psSwapThread
  dsimp only
  rw [lock_ok (by exact unlocked), ok_bind]
  exact pspSwapThread_ends checked True switching (by decide) (fun h => by cases h)

theorem exitSwap_ends (checked : Bool) {s : SchedState} {ready wait : List Nat} {queue : Nat → List Nat}
    (ok : Settled s ready wait queue) (unlocked : s.schedulerLock = false)
    (leaves : s.current.exiting = true) : Ends True (psExitThreadSwap checked s) := by
  have switching := exitSwap_switching (ok.setLock true) leaves
  unfold psExitThreadSwap psSwapThread
  rw [lock_ok unlocked, ok_bind]
  exact pspSwapThread_ends checked True switching (by decide) fun _ => ok.current_dead leaves

theorem exit_ends (code : BitVec 32) {s : SchedState} {ready wait : List Nat} {queue : Nat → List Nat}
    (ok : Settled s ready wait queue) (unlocked : s.schedulerLock = false)
    (stays : s.current.exiting = false) : Ends False (psExitThread s code) := by
  have settled := exit_settled code (ok.setLock true) stays rfl
  unfold psExitThread
  rw [lock_ok unlocked, ok_bind]
  exact .inl ⟨_, rfl, .free (settled.setLock false) rfl, fun h => h.elim⟩

theorem terminate_ends (t : Nat) (code : BitVec 32) {s : SchedState} {ready wait : List Nat}
    {queue : Nat → List Nat} (ok : Settled s ready wait queue) (unlocked : s.schedulerLock = false)
    (known : t ∈ s.threadList) (live : (s.thread t).state ≠ .terminated) :
    Ends False (psTerminateThread s t code) := by
  unfold psTerminateThread
  rw [lock_ok unlocked, ok_bind]
  refine .inl ⟨_, rfl, .stuck (lists_remove ok.lists (ok.lists.placed t known live) rfl rfl ?_ ?_) rfl,
    fun h => h.elim⟩
  · exact fun v hv => if_neg hv
  · simp

theorem create_ends (t : Nat) {s : SchedState} {ready wait : List Nat} {queue : Nat → List Nat}
    (ok : Settled s ready wait queue) (unlocked : s.schedulerLock = false) (new : t ∉ s.threadList) :
    Ends False (pspCreateThread s t) := by
  unfold pspCreateThread
  rw [lock_ok unlocked, ok_bind]
  refine .inl ⟨_, rfl, .free (create_settled (t := t) ok new rfl rfl rfl rfl ?_ ?_ ?_ ?_ ?_) rfl, fun h => h.elim⟩
  · exact fun v hv => if_neg hv
  all_goals simp

theorem setEvent_ends (checked : Bool) (o : Nat) (inc : BitVec 16) {s : SchedState} {ready wait : List Nat}
    {queue : Nat → List Nat} (ok : Settled s ready wait queue) (unlocked : s.schedulerLock = false) :
    Ends False ((keSetEvent checked s o inc).map Prod.snd) := by
  obtain ⟨u, ready', wait', queue', code, settled, free⟩ := keSetEvent_settled checked inc o ok unlocked
  exact .inl ⟨u, by rw [code]; rfl, .free settled free, fun h => h.elim⟩

theorem release_ends (checked : Bool) (m : Nat) {s : SchedState} {ready wait : List Nat}
    {queue : Nat → List Nat} (ok : Settled s ready wait queue) (unlocked : s.schedulerLock = false) :
    Ends False (exReleaseMutex checked s m) := by
  have dropped := ok.setHolders fun o => if o = m then (s.holders o).erase s.currentThread else s.holders o
  unfold exReleaseMutex
  dsimp only
  by_cases early : s.kiInitializationPhase = 0
  · rw [if_pos early]
    exact .inl ⟨_, rfl, .free dropped unlocked, fun h => h.elim⟩
  · rw [if_neg early]
    obtain ⟨u, ready', wait', queue', code, settled, free⟩ := keSetEvent_settled checked 0 m dropped unlocked
    exact .inl ⟨u, by rw [code]; rfl, .free settled free, fun h => h.elim⟩

/-- No quantum ends between the locked section of PsExitThread and its PsSwapThread. -/
def ExitUninterrupted (s : SchedState) (op : SchedOp) : Prop := op = .quantumEnd → s.current.exiting = false

instance (s : SchedState) (op : SchedOp) : Decidable (ExitUninterrupted s op) :=
  inferInstanceAs (Decidable (_ → _))

theorem perform_free (checked : Bool) (op : SchedOp) {s : SchedState} {ready wait : List Nat}
    {queue : Nat → List Nat} (ok : Settled s ready wait queue) (unlocked : s.schedulerLock = false)
    (enabled : Enabled s op) (calm : ExitUninterrupted s op) :
    Ends (Switches s op) (perform checked s op) := by
  cases op with
  | create t => exact create_ends t ok unlocked enabled.2
  | wait o => exact wait_ends checked o ok unlocked enabled
  | setEvent o inc => exact setEvent_ends checked o inc ok unlocked
  | delay n => exact delay_ends checked n ok unlocked enabled
  | exit code => exact exit_ends code ok unlocked enabled
  | exitSwap => exact exitSwap_ends checked ok unlocked enabled
  | terminate t code => exact terminate_ends t code ok unlocked enabled.2.1 enabled.2.2.2
  | quantumEnd => exact quantumEnd_ends checked ok unlocked (calm rfl)
  | acquire m => exact acquire_ends checked m ok unlocked enabled
  | release m => exact release_ends checked m ok unlocked

/-- Once the lock stays taken only a mutex call of phase 0 returns, and it touches nothing. -/
theorem perform_stuck (checked : Bool) (op : SchedOp) {s : SchedState} (locked : s.schedulerLock = true) :
    perform checked s op = .error .lockHeld ∨
    ¬ Switches s op ∧ ∃ holders, perform checked s op = .ok { s with holders := holders } := by
  cases op with
  | create t => exact .inl (by simp [perform, pspCreateThread, lock_error locked])
  | wait o => exact .inl (by simp [perform, keWaitForSingleObject, lock_error locked])
  | setEvent o inc => exact .inl (by simp [perform, keSetEvent, lock_error locked, Except.map])
  | delay n => exact .inl (by simp [perform, psDelayThreadExecution, lock_error locked])
  | exit code => exact .inl (by simp [perform, psExitThread, lock_error locked])
  | exitSwap => exact .inl (by simp [perform, psExitThreadSwap, psSwapThread, lock_error locked])
  | terminate t code => exact .inl (by simp [perform, psTerminateThread, lock_error locked])
  | quantumEnd =>
    have still : (s.setThread s.currentThread fun r => { r with state := .ready }).schedulerLock = true := locked
    exact .inl (by simp [perform, psQuantumEnd, psSwapThread, lock_error still])
  | acquire m =>
    by_cases early : s.kiInitializationPhase = 0
    · exact .inr ⟨fun h => h.1 early, _, by simp only [perform, exAcquireMutex, early, if_true]; rfl⟩
    · exact .inl (by simp [perform, exAcquireMutex, early, lock_error locked])
  | release m =>
    by_cases early : s.kiInitializationPhase = 0
    · exact .inr ⟨fun h => h, _, by simp only [perform, exReleaseMutex, early, if_true]; rfl⟩
    · refine .inl ?_
      have still : ∀ holders, pspLockSchedulerDatabase { s with holders := holders } = .error .lockHeld :=
        fun holders => lock_error locked
      simp [perform, exReleaseMutex, early, keSetEvent, still]

theorem resting_step (checked : Bool) (op : SchedOp) {s t : SchedState} (ok : Resting s)
    (calm : ExitUninterrupted s op) (step : schedStep checked s op = some t) :
    Resting t ∧ (Switches s op → RunsAlone t) := by
  unfold schedStep at step
  by_cases enabled : Enabled s op
  · rw [if_pos enabled] at step
    cases ok with
    | free settled unlocked =>
      rcases perform_free checked op settled unlocked enabled calm with ⟨u, code, after, alone⟩ | code | code
      · rw [code] at step
        cases Option.some.inj step
        exact ⟨after, alone⟩
      all_goals
        rw [code] at step
        cases step
    | stuck lists locked =>
      rcases perform_stuck checked op locked with code | ⟨quiet, holders, code⟩
      · rw [code] at step
        cases step
      · rw [code] at step
        cases Option.some.inj step
        exact ⟨.stuck (lists.congr rfl rfl fun _ => rfl) locked, fun h => absurd h quiet⟩
  · rw [if_neg enabled] at step
    cases step

/-- Where every thread is: what PsReadyListHead and PsWaitListHead are for. -/
structure Scheduled (s : SchedState) (ready wait : List Nat) : Prop where
  readyRing : Ring s.sched .psReadyListHead (threads ready)
  waitRing : Ring s.sched .psWaitListHead (threads wait)
  live : ∀ t ∈ s.threadList, (s.thread t).state ≠ .terminated →
    (t ∈ ready ∧ t ∉ wait ∧ ((s.thread t).state = .ready ∨ (s.thread t).state = .running)) ∨
    (t ∈ wait ∧ t ∉ ready ∧ (s.thread t).state = .wait)
  dead : ∀ t, (s.thread t).state = .terminated → t ∉ ready ∧ t ∉ wait

theorem ListsOk.scheduled {s : SchedState} {ready wait : List Nat} (ok : ListsOk s ready wait) :
    Scheduled s ready wait := by
  refine ⟨ok.readyRing, ok.waitRing, ?_, ?_⟩
  · intro t known alive
    rcases ok.placed t known alive with here | waits
    · exact .inl ⟨here, ok.disjoint t here, ok.readyState t here⟩
    · exact .inr ⟨waits, fun h => ok.disjoint t h waits, ok.waitState t waits⟩
  · intro t dead
    constructor
    · intro h
      rcases ok.readyState t h with state | state <;> exact absurd (state.symm.trans dead) (by decide)
    · intro h
      exact absurd ((ok.waitState t h).symm.trans dead) (by decide)

theorem Resting.scheduled {s : SchedState} (ok : Resting s) : ∃ ready wait, Scheduled s ready wait := by
  cases ok with
  | free settled _ => exact ⟨_, _, settled.lists.scheduled⟩
  | stuck lists _ => exact ⟨_, _, lists.scheduled⟩

/-- PsInitSystem and PspInitSystem leave the system thread alone in the ready list. -/
structure Booted (s : SchedState) (systemThread : Nat) : Prop where
  threadList : s.threadList = [systemThread]
  current : s.currentThread = systemThread
  state : (s.thread systemThread).state = .running
  stays : (s.thread systemThread).exiting = false
  ready : Ring s.sched .psReadyListHead [.thread systemThread]
  wait : Ring s.sched .psWaitListHead []
  queues : ∀ o, Ring s.waiters (.waitListHead o) []
  unlocked : s.schedulerLock = false

theorem Booted.settled {s : SchedState} {t : Nat} (boot : Booted s t) : Settled s [t] [] fun _ => [] := by
  have only : ∀ u ∈ s.threadList, u = t := fun u hu => by simpa [boot.threadList] using hu
  refine ⟨⟨boot.ready, boot.wait, by simp, ?_, by simp, ?_, ?_⟩, ⟨boot.queues, ?_, ?_, ?_⟩, ⟨?_, ?_, ?_, ?_⟩,
    ?_, ?_⟩
  · intro u hu
    rw [List.mem_singleton.mp hu]
    exact .inr boot.state
  · intro u hu _
    simp [only u hu]
  · intro u hu
    simp_all [boot.threadList]
  · intro o u hu
    cases hu
  · intro o u hu
    cases hu
  · intro o p u hu
    cases hu
  · intro u hu exiting
    rw [only u hu, boot.stays] at exiting
    cases exiting
  · exact fun u hu away => absurd ((only u hu).trans boot.current.symm) away
  · exact fun u hu away => absurd ((only u hu).trans boot.current.symm) away
  · simp [boot.threadList, boot.current]
  · intro u hu
    rw [List.mem_singleton.mp hu, boot.current, boot.state]
    simp
  · simp [boot.current]

theorem Booted.resting_run {checked : Bool} {systemThread : Nat} {s u : SchedState} {ops : List SchedOp}
    (boot : Booted s systemThread)
    (run : Run (Guarded ExitUninterrupted fun s op t => schedStep checked s op = some t) s ops u) : Resting u := by
  refine run.invariant (I := Resting) ?_ (.free boot.settled boot.unlocked)
  intro v op w ok step
  exact (resting_step checked op ok step.1 step.2).1

/-- The lists hold in every state of a run, and every switch leaves the current thread running alone. -/
theorem scheduler_lists_hold (checked : Bool) (systemThread : Nat) {s u : SchedState} {ops : List SchedOp}
    (boot : Booted s systemThread)
    (run : Run (Guarded ExitUninterrupted fun s op t => schedStep checked s op = some t) s ops u) :
    (∃ ready wait, Scheduled u ready wait) ∧
    ∀ op t, ExitUninterrupted u op → schedStep checked u op = some t → Switches u op → RunsAlone t := by
  have resting := boot.resting_run run
  exact ⟨resting.scheduled, fun op t calm step => (resting_step checked op resting calm step).2⟩

/-- The machine as PsInitSystem and PspInitSystem leave it: thread 0 is the system thread. -/
def bootState (header : Nat → SchedulerHeader) : SchedState where
  kiInitializationPhase := 1
  schedulerLock := false
  uniqueThreadIdSeed := 1
  currentThread := 0
  quantumLeft := threadNormalQuantum
  thread := fun _ => {
    uniqueId := 1
    kernelStack := .quantumEnd
    state := .running
    justInitialized := false
    quantum := threadNormalQuantum
    quantumDynamic := 0
    waitType := .notWaiting
    delayedTickCount := 0
    numberOfObjectsWaiting := 0
    waitBlockUsed := none
    exitCode := 0
    exiting := false }
  threadList := [0]
  sched := insertTailList ⟨id, id⟩ .psReadyListHead (.thread 0)
  waiters := ⟨id, id⟩
  header := header
  holders := fun _ => []

theorem bootState_booted (header : Nat → SchedulerHeader) : Booted (bootState header) 0 where
  threadList := rfl
  current := rfl
  state := rfl
  stays := rfl
  ready := ring_insertTail (ring_nil rfl rfl) (by decide)
  wait := ring_nil rfl rfl
  queues := fun _ => ring_nil rfl rfl
  unlocked := rfl

def oneEvent : Nat → SchedulerHeader := fun _ => ⟨.synchronizationEvent, false⟩

/-- Two threads, a wait, an event, a sleep and an exit. -/
def ordinaryDay : List SchedOp :=
  [.create 1, .create 2, .quantumEnd, .wait 7, .quantumEnd, .setEvent 7 2, .quantumEnd, .delay 5, .exit 0]

theorem ordinaryDay_scheduled : ∃ u,
    exec (guarded ExitUninterrupted (schedStep true)) (bootState oneEvent) ordinaryDay = some u ∧
    ((∃ ready wait, Scheduled u ready wait) ∧
      ∀ op t, ExitUninterrupted u op → schedStep true u op = some t → Switches u op → RunsAlone t) := by
  have finishes : (exec (guarded ExitUninterrupted (schedStep true)) (bootState oneEvent) ordinaryDay).isSome =
      true := by decide
  obtain ⟨u, run⟩ := Option.isSome_iff_exists.mp finishes
  exact ⟨u, run, scheduler_lists_hold true 0 (bootState_booted oneEvent) (guarded_run run)⟩

def interruptedExit : List SchedOp :=
  [.create 1, .create 2, .quantumEnd, .wait 7, .quantumEnd, .exit 0, .quantumEnd, .quantumEnd, .setEvent 7 0]

/-- A quantum that ends inside PsExitThread puts the dead thread back into the ready list; the swap
that thread was about to make then leaves two threads running. -/
theorem interruptedExit_two_running : Booted (bootState oneEvent) 0 ∧ ∀ checked : Bool, ∃ u t,
    exec (schedStep checked) (bootState oneEvent) interruptedExit = some u ∧
    schedStep checked u .exitSwap = some t ∧ Switches u .exitSwap ∧
    (t.thread 0).state = .running ∧ (t.thread 2).state = .running ∧ ¬ RunsAlone t := by
  refine ⟨bootState_booted oneEvent, ?_⟩
  intro checked
  have finishes : ((exec (schedStep checked) (bootState oneEvent) interruptedExit).bind fun u =>
      (schedStep checked u .exitSwap).map fun t =>
        (t.threadList, (t.thread 0).state, (t.thread 2).state)) = some ([0, 1, 2], .running, .running) := by
    revert checked
    decide
  obtain ⟨u, run, rest⟩ := Option.bind_eq_some_iff.mp finishes
  obtain ⟨t, step, states⟩ := Option.map_eq_some_iff.mp rest
  simp only [Prod.mk.injEq] at states
  obtain ⟨list, dead, woken⟩ := states
  refine ⟨u, t, run, step, trivial, dead, woken, ?_⟩
  rintro ⟨_, alone⟩
  have first := (alone 0 (by simp [list])).mp dead
  have second := (alone 2 (by simp [list])).mp woken
  omega

end Gr8os.Ps
