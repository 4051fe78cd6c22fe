import Gr8os.Ps.SchedulerRuns

/-! Mutual exclusion of ExAcquireMutex and ExReleaseMutex over the scheduler's steps.
A waiter that was woken clears SignaledState when it runs again, without testing it. -/
namespace Gr8os.Ex

open Ps Runs

theorem bind_eq_ok {α β : Type} {x : Except Halt α} {f : α → Except Halt β} {b : β} :
    (x >>= f) = .ok b ↔ ∃ a, x = .ok a ∧ f a = .ok b := by
  cases x <;> simp

/-- What a mutex depends on is as it was. -/
structure Untouched (s u : SchedState) : Prop where
  header : u.header = s.header
  holders : u.holders = s.holders
  phase : u.kiInitializationPhase = s.kiInitializationPhase
  current : u.currentThread = s.currentThread
  stack : ∀ t, (u.thread t).kernelStack = (s.thread t).kernelStack

theorem Untouched.refl (s : SchedState) : Untouched s s := ⟨rfl, rfl, rfl, rfl, fun _ => rfl⟩

theorem Untouched.trans {s u v : SchedState} (first : Untouched s u) (second : Untouched u v) :
    Untouched s v where
  header := second.header.trans first.header
  holders := second.holders.trans first.holders
  phase := second.phase.trans first.phase
  current := second.current.trans first.current
  stack := fun t => (second.stack t).trans (first.stack t)

theorem setThread_untouched (s : SchedState) (t : Nat) {f : Thread → Thread}
    (kept : ∀ r, (f r).kernelStack = r.kernelStack) : Untouched s (s.setThread t f) where
  header := rfl
  holders := rfl
  phase := rfl
  current := rfl
  stack := fun u => by by_cases h : u = t <;> simp [h, kept]

theorem assert_cases {checked condition : Bool} {s u : SchedState} (h : assert checked condition s = .ok u) :
    u = s := by
  unfold assert at h
  split at h
  · cases h
  · cases h
    rfl

theorem lock_cases {s u : SchedState} (h : pspLockSchedulerDatabase s = .ok u) :
    u = { s with schedulerLock := true } := by
  unfold pspLockSchedulerDatabase at h
  split at h
  · cases h
  · cases h
    rfl

theorem pspReadyThread_untouched {checked : Bool} {s u : SchedState} {t : Nat}
    (h : pspReadyThread checked s t = .ok u) : Untouched s u := by
  obtain ⟨v, first, rest⟩ := bind_eq_ok.mp h
  cases assert_cases first
  cases rest
  exact ⟨rfl, rfl, rfl, rfl, fun _ => rfl⟩

theorem pspUnwaitThread_untouched {checked : Bool} {s u : SchedState} {t : Nat} {inc : BitVec 16}
    (h : pspUnwaitThread checked s t inc = .ok u) : Untouched s u := by
  obtain ⟨v, first, rest⟩ := bind_eq_ok.mp h
  cases assert_cases first
  split at rest
  · cases rest
    let moved := { s with
      sched := Ke.insertHeadList (Ke.removeEntryList s.sched (.thread t)) .psReadyListHead (.thread t)
      waiters := removeWaitBlocks s.waiters t (s.thread t).numberOfObjectsWaiting }
    have lists : Untouched s moved := ⟨rfl, rfl, rfl, rfl, fun _ => rfl⟩
    exact lists.trans (setThread_untouched moved t fun _ => rfl)
  · cases rest
    exact .refl s

theorem requeueCurrent_untouched {checked : Bool} {s u : SchedState}
    (h : requeueCurrent checked s = .ok u) : Untouched s u := by
  unfold requeueCurrent at h
  split at h
  · exact pspReadyThread_untouched h
  · cases h
    exact .refl s

theorem processWaitListFrom_untouched {checked : Bool} (fuel : Nat) {node : SchedNode} {s u : SchedState}
    (h : processWaitListFrom checked fuel node s = .ok u) : Untouched s u := by
  induction fuel generalizing node s with
  | zero => cases h
  | succ fuel ih =>
    cases node with
    | psWaitListHead =>
      cases h
      exact .refl _
    | psReadyListHead => cases h
    | thread t =>
      rw [processWaitListFrom] at h
      have ticked := setThread_untouched s t (f := fun r => { r with delayedTickCount := r.delayedTickCount - 1 })
        fun _ => rfl
      split at h
      · dsimp only at h
        split at h
        · obtain ⟨v, woken, rest⟩ := bind_eq_ok.mp h
          exact (ticked.trans (pspUnwaitThread_untouched woken)).trans (ih rest)
        · exact ticked.trans (ih h)
      · exact ih h

theorem kiSetEventFrom_untouched {checked : Bool} {event : Nat} {inc : BitVec 16} (fuel : Nat)
    {node : WaitNode} {s u : SchedState} (h : kiSetEventFrom checked event inc fuel node s = .ok u) :
    Untouched s u := by
  induction fuel generalizing node s with
  | zero => cases h
  | succ fuel ih =>
    cases node with
    | waitListHead o => cases h
    | waitBlock t i =>
      rw [kiSetEventFrom] at h
      split at h
      · cases h
      dsimp only at h
      split at h
      · obtain ⟨v, woken, rest⟩ := bind_eq_ok.mp h
        have first := pspUnwaitThread_untouched woken
        split at rest
        · cases rest
          exact first
        split at rest
        · cases rest
          exact first
        · exact first.trans (ih rest)
      · split at h
        · cases h
          exact .refl _
        · exact ih h

theorem kiSetEvent_untouched {checked : Bool} {s u : SchedState} {event : Nat} {inc : BitVec 16} {old : Bool}
    (h : kiSetEvent checked s event inc = .ok (old, u)) : Untouched (s.setSignaled event true) u := by
  unfold kiSetEvent satisfyWaiters at h
  obtain ⟨v, woken, rest⟩ := bind_eq_ok.mp h
  cases rest
  split at woken
  · exact kiSetEventFrom_untouched _ woken
  · cases woken
    exact .refl _

theorem keSetEvent_effect {checked : Bool} {s u : SchedState} {event : Nat} {inc : BitVec 16} {old : Bool}
    (h : keSetEvent checked s event inc = .ok (old, u)) :
    u.header = (s.setSignaled event true).header ∧ u.holders = s.holders ∧
    u.kiInitializationPhase = s.kiInitializationPhase := by
  unfold keSetEvent at h
  obtain ⟨v, locked, rest⟩ := bind_eq_ok.mp h
  cases lock_cases locked
  obtain ⟨⟨old', w⟩, set, final⟩ := bind_eq_ok.mp rest
  cases final
  have kept := kiSetEvent_untouched set
  exact ⟨kept.header, kept.holders, kept.phase⟩

/-- The call that the next switch returns into: the stack of the thread found, or the switching call's own. -/
def switchReturn (checked : Bool) (s : SchedState) (return_ : SwapReturn) : Option SwapReturn :=
  let found := do
    let s ← requeueCurrent checked s
    let s ← pspProcessWaitList checked s
    findReadyThread checked s
  found.toOption.map fun next => if next = s.currentThread then return_ else (s.thread next).kernelStack

/-- A switch touches no mutex but the one whose ExAcquireMutex it returns into. -/
theorem pspSwapThread_effect {checked : Bool} {s u : SchedState} {return_ : SwapReturn}
    (h : pspSwapThread checked s return_ = .ok u) :
    ∃ call, switchReturn checked s return_ = some call ∧
      u.kiInitializationPhase = s.kiInitializationPhase ∧
      match call with
      | .acquireMutex m => u.header = (s.setSignaled m false).header ∧
          u.holders = fun o => if o = m then u.currentThread :: s.holders o else s.holders o
      | _ => u.header = s.header ∧ u.holders = s.holders := by
  obtain ⟨v, first, rest⟩ := bind_eq_ok.mp h
  obtain ⟨w, second, rest⟩ := bind_eq_ok.mp rest
  obtain ⟨next, found, final⟩ := bind_eq_ok.mp rest
  have kept := (requeueCurrent_untouched first).trans (processWaitListFrom_untouched _ second)
  have swapped : (swapContext w return_ next).header = w.header ∧
      (swapContext w return_ next).holders = w.holders ∧
      (swapContext w return_ next).kiInitializationPhase = w.kiInitializationPhase ∧
      (swapContext w return_ next).current.kernelStack =
        if next = w.currentThread then return_ else (w.thread next).kernelStack := by
    refine ⟨?_, ?_, ?_, ?_⟩
    · unfold swapContext
      dsimp only
      split <;> rfl
    · unfold swapContext
      dsimp only
      split <;> rfl
    · unfold swapContext
      dsimp only
      split <;> rfl
    · rw [SchedState.current, (swapContext_frame w return_ next).2.2.2, swapContext_thread]
  obtain ⟨header, holders, phase, stack⟩ := swapped
  have call : switchReturn checked s return_ =
      some (if next = s.currentThread then return_ else (s.thread next).kernelStack) := by
    simp [switchReturn, first, second, found, Except.toOption]
  refine ⟨_, call, ?_⟩
  rw [← kept.current, ← kept.stack next, ← stack]
  unfold resume at final
  cases after : (swapContext w return_ next).current.kernelStack with
  | exitThread => simp [after] at final
  | acquireMutex m =>
    simp only [after, Except.ok.injEq] at final
    subst final
    refine ⟨phase.trans kept.phase, ?_, ?_⟩
    · simp [SchedState.setSignaled, header, kept.header, pspUnlockSchedulerDatabase]
    · simp [SchedState.setSignaled, holders, kept.holders, pspUnlockSchedulerDatabase]
  | _ =>
    simp only [after, Except.ok.injEq] at final
    subst final
    exact ⟨phase.trans kept.phase, header.trans kept.header, holders.trans kept.holders⟩

def IsMutex (s : SchedState) (m : Nat) : Prop := (s.header m).objectType = .synchronizationMutex

/-- A free mutex is signaled and nobody holds it; one that is not signaled has one holder. -/
def Exclusive (s : SchedState) : Prop := ∀ m, IsMutex s m →
  ((s.header m).signaledState = true ∧ s.holders m = []) ∨
  ((s.header m).signaledState = false ∧ ∃ t, s.holders m = [t])

/-- What one step does to the mutexes. -/
inductive MutexChange (s u : SchedState) : Prop
  | quiet (header : ∀ m, IsMutex u m → u.header m = s.header m) (holders : u.holders = s.holders)
  | taken (m t : Nat) (signaled : (s.header m).signaledState = true)
      (header : u.header = (s.setSignaled m false).header)
      (holders : u.holders = fun o => if o = m then t :: s.holders o else s.holders o)
  | dropped (m t : Nat) (holder : t ∈ s.holders m) (header : u.header = (s.setSignaled m true).header)
      (holders : u.holders = fun o => if o = m then (s.holders o).erase t else s.holders o)

theorem Exclusive.kept {s u : SchedState} (ok : Exclusive s) (change : MutexChange s u) : Exclusive u := by
  intro m mutex
  cases change with
  | quiet header holders =>
    have same := header m mutex
    have was : IsMutex s m := by
      rw [IsMutex, ← same]
      exact mutex
    rw [same, holders]
    exact ok m was
  | taken n t signaled header holders =>
    have was : IsMutex s m := by
      rw [IsMutex, header] at mutex
      by_cases h : m = n <;> simpa [SchedState.setSignaled, IsMutex, h] using mutex
    rw [header, holders]
    rcases ok m was with ⟨free, nobody⟩ | ⟨busy, holder⟩
    · by_cases h : m = n
      · exact .inr ⟨by simp [SchedState.setSignaled, h], t, by simp [h, h ▸ nobody]⟩
      · exact .inl ⟨by simpa [SchedState.setSignaled, h] using free, by simpa [h] using nobody⟩
    · have h : m ≠ n := by
        rintro rfl
        simp [signaled] at busy
      exact .inr ⟨by simpa [SchedState.setSignaled, h] using busy, by simpa [h] using holder⟩
  | dropped n t member header holders =>
    have was : IsMutex s m := by
      rw [IsMutex, header] at mutex
      by_cases h : m = n <;> simpa [SchedState.setSignaled, IsMutex, h] using mutex
    rw [header, holders]
    by_cases h : m = n
    · subst h
      refine .inl ⟨by simp [SchedState.setSignaled], ?_⟩
      rcases ok m was with ⟨_, nobody⟩ | ⟨_, holder, only⟩
      · simp [nobody] at member
      · rw [only] at member
        have own : t = holder := by simpa using member
        simp [only, own]
    · simpa [SchedState.setSignaled, h] using ok m was

/-- The call a switching operation returns into. -/
def resumedCall (checked : Bool) (s : SchedState) : SchedOp → Option SwapReturn
  | .wait o =>
    if (s.header o).signaledState then none
    else switchReturn checked (blockOn { s with schedulerLock := true } o) .waitForSingleObject
  | .acquire m =>
    if (s.header m).signaledState then none
    else switchReturn checked (blockOn { s with schedulerLock := true } m) (.acquireMutex m)
  | .delay n => switchReturn checked (delayCurrent { s with schedulerLock := true } n) .delayThreadExecution
  | .exitSwap => switchReturn checked { s with schedulerLock := true } .exitThread
  | .quantumEnd =>
    let s := s.setThread s.currentThread fun r => { r with state := .ready }
    switchReturn checked { s with schedulerLock := true } .quantumEnd
  | _ => none

/-- Phase 0 is over, and a switch back into ExAcquireMutex finds the mutex signaled. -/
def resumedFree (checked : Bool) (s : SchedState) (op : SchedOp) : Bool :=
  s.kiInitializationPhase ≠ 0 &&
  match resumedCall checked s op with
  | some (.acquireMutex m) => (s.header m).signaledState
  | _ => true

/-- ExAcquireMutex and ExReleaseMutex take mutexes, and nobody else sets one. -/
def MutexTyped (s : SchedState) : SchedOp → Prop
  | .acquire m | .release m => IsMutex s m
  | .setEvent e _ => ¬ IsMutex s e
  | _ => True

instance (s : SchedState) (m : Nat) : Decidable (IsMutex s m) := inferInstanceAs (Decidable (_ = _))

instance (s : SchedState) : (op : SchedOp) → Decidable (MutexTyped s op)
  | .acquire m | .release m => inferInstanceAs (Decidable (IsMutex s m))
  | .setEvent e _ => inferInstanceAs (Decidable (¬ IsMutex s e))
  | .create _ | .wait _ | .delay _ | .exit _ | .exitSwap | .terminate _ _ | .quantumEnd => .isTrue trivial

def mutexStep (checked : Bool) : SchedState → SchedOp → Option SchedState :=
  guarded MutexTyped (schedStep checked)

theorem switch_change {checked : Bool} {s v u : SchedState} {return_ : SwapReturn}
    (swap : pspSwapThread checked v return_ = .ok u) (header : v.header = s.header) (holders : v.holders = s.holders)
    (free : ∀ m, switchReturn checked v return_ = some (.acquireMutex m) → (s.header m).signaledState = true) :
    MutexChange s u := by
  obtain ⟨call, code, _, effect⟩ := pspSwapThread_effect swap
  cases call with
  | acquireMutex m =>
    refine .taken m u.currentThread (free m code) ?_ ?_
    · rw [effect.1, SchedState.setSignaled, SchedState.setSignaled, header]
    · rw [effect.2, holders]
  | _ => exact .quiet (fun m _ => by rw [effect.1, header]) (effect.2.trans holders)

theorem perform_change {checked : Bool} {s u : SchedState} {op : SchedOp} (enabled : Enabled s op)
    (typed : MutexTyped s op) (guard : resumedFree checked s op = true) (code : perform checked s op = .ok u) :
    MutexChange s u := by
  simp only [resumedFree, Bool.and_eq_true, decide_eq_true_eq] at guard
  obtain ⟨phase, resumed⟩ := guard
  have free : ∀ m, resumedCall checked s op = some (.acquireMutex m) → (s.header m).signaledState = true := by
    intro m call
    simpa [call] using resumed
  cases op with
  | create t =>
    obtain ⟨v, locked, rest⟩ := bind_eq_ok.mp code
    cases lock_cases locked
    cases rest
    exact .quiet (fun _ _ => rfl) rfl
  | wait o =>
    obtain ⟨v, locked, rest⟩ := bind_eq_ok.mp code
    cases lock_cases locked
    dsimp only at rest
    split at rest
    · cases rest
      exact .quiet (fun _ _ => rfl) rfl
    · rename_i busy
      have code : switchReturn checked (blockOn { s with schedulerLock := true } o) .waitForSingleObject =
          resumedCall checked s (.wait o) := (if_neg busy).symm
      have swap : pspSwapThread checked (blockOn { s with schedulerLock := true } o) .waitForSingleObject =
          .ok u := rest
      rw [← code] at free
      exact switch_change swap rfl rfl free
  | setEvent e inc =>
    cases set : keSetEvent checked s e inc with
    | error h => simp [perform, set, Except.map] at code
    | ok r =>
      obtain ⟨old, w⟩ := r
      have result : w = u := by simpa [perform, set, Except.map] using code
      subst result
      obtain ⟨header, holders, _⟩ := keSetEvent_effect set
      refine .quiet (fun m mutex => ?_) holders
      have other : m ≠ e := by
        rintro rfl
        rw [IsMutex, header] at mutex
        exact typed (by simpa [SchedState.setSignaled, IsMutex] using mutex)
      simp [header, SchedState.setSignaled, other]
  | delay n =>
    obtain ⟨v, locked, rest⟩ := bind_eq_ok.mp code
    cases lock_cases locked
    exact switch_change rest rfl rfl free
  | exit c =>
    obtain ⟨v, locked, rest⟩ := bind_eq_ok.mp code
    cases lock_cases locked
    cases rest
    exact .quiet (fun _ _ => rfl) rfl
  | exitSwap =>
    obtain ⟨v, locked, rest⟩ := bind_eq_ok.mp code
    cases lock_cases locked
    exact switch_change rest rfl rfl free
  | terminate t c =>
    obtain ⟨v, locked, rest⟩ := bind_eq_ok.mp code
    cases lock_cases locked
    cases rest
    exact .quiet (fun _ _ => rfl) rfl
  | quantumEnd =>
    obtain ⟨v, locked, rest⟩ := bind_eq_ok.mp code
    cases lock_cases locked
    exact switch_change rest rfl rfl free
  | acquire m =>
    simp only [perform, exAcquireMutex, if_neg phase] at code
    obtain ⟨v, locked, rest⟩ := bind_eq_ok.mp code
    cases lock_cases locked
    dsimp only at rest
    split at rest
    · rename_i signaled
      cases rest
      exact .taken m s.currentThread signaled rfl rfl
    · rename_i busy
      have code : switchReturn checked (blockOn { s with schedulerLock := true } m) (.acquireMutex m) =
          resumedCall checked s (.acquire m) := (if_neg busy).symm
      have swap : pspSwapThread checked (blockOn { s with schedulerLock := true } m) (.acquireMutex m) =
          .ok u := rest
      rw [← code] at free
      exact switch_change swap rfl rfl free
  | release m =>
    simp only [perform, exReleaseMutex, if_neg phase] at code
    obtain ⟨⟨old, v⟩, set, rest⟩ := bind_eq_ok.mp code
    cases rest
    obtain ⟨header, holders, _⟩ := keSetEvent_effect set
    exact .dropped m s.currentThread enabled.2 header holders

/-- ExInitializeMutex has set up every mutex, and nobody has taken one yet. -/
def MutexesFree (s : SchedState) : Prop := ∀ m, IsMutex s m → (s.header m).signaledState = true ∧ s.holders m = []

/-- One holder at a time, in every run where each resumed waiter finds its mutex signaled. -/
theorem mutex_excludes (checked : Bool) {s u : SchedState} {ops : List SchedOp} (initial : MutexesFree s)
    (run : Run (Guarded (fun s op => resumedFree checked s op = true)
      fun s op t => mutexStep checked s op = some t) s ops u) :
    ∀ m, IsMutex u m → ∀ a ∈ u.holders m, ∀ b ∈ u.holders m, a = b := by
  have exclusive : Exclusive u := by
    refine run.invariant (I := Exclusive) ?_ fun m mutex => .inl (initial m mutex)
    intro v op w ok step
    obtain ⟨guard, stepped⟩ := step
    have parts : MutexTyped v op ∧ schedStep checked v op = some w := by
      by_cases typed : MutexTyped v op
      · exact ⟨typed, by simpa [mutexStep, guarded, typed] using stepped⟩
      · simp [mutexStep, guarded, typed] at stepped
    have performed : Enabled v op ∧ perform checked v op = .ok w := by
      have step := parts.2
      unfold schedStep at step
      split at step
      · rename_i enabled
        cases code : perform checked v op with
        | error h => simp [code, Except.toOption] at step
        | ok x => exact ⟨enabled, by simpa [code, Except.toOption] using step⟩
      · cases step
    exact ok.kept (perform_change performed.1 parts.1 guard performed.2)
  intro m mutex a ha b hb
  rcases exclusive m mutex with ⟨_, nobody⟩ | ⟨_, holder, only⟩
  · simp [nobody] at ha
  · simp_all

def freshMutexes : Nat → SchedulerHeader := fun _ => ⟨.synchronizationMutex, true⟩

theorem freshMutexes_free : MutexesFree (bootState freshMutexes) := fun _ _ => ⟨rfl, rfl⟩

/-- Thread 1 waits for the mutex of thread 0 and gets it before anybody asks again. -/
def handover : List SchedOp := [.create 1, .acquire 7, .quantumEnd, .acquire 7, .release 7, .quantumEnd]

theorem handover_excludes : ∃ u,
    exec (guarded (fun s op => resumedFree true s op = true) (mutexStep true)) (bootState freshMutexes) handover =
      some u ∧ u.holders 7 = [1] ∧ ∀ m, IsMutex u m → ∀ a ∈ u.holders m, ∀ b ∈ u.holders m, a = b := by
  have finishes : (exec (guarded (fun s op => resumedFree true s op = true) (mutexStep true))
      (bootState freshMutexes) handover).map (fun u => u.holders 7) = some [1] := by decide
  obtain ⟨u, run, holder⟩ := Option.map_eq_some_iff.mp finishes
  exact ⟨u, run, holder, mutex_excludes true freshMutexes_free (guarded_run run)⟩

def barging : List SchedOp :=
  [.create 1, .acquire 7, .quantumEnd, .acquire 7, .release 7, .acquire 7, .quantumEnd]

/-- Thread 0 takes the mutex again before the woken thread 1 runs, and thread 1 does not look. -/
theorem barging_two_holders : MutexesFree (bootState freshMutexes) ∧ ∀ checked : Bool, ∃ u,
    exec (mutexStep checked) (bootState freshMutexes) barging = some u ∧ IsMutex u 7 ∧
    ¬ ∀ a ∈ u.holders 7, ∀ b ∈ u.holders 7, a = b := by
  refine ⟨freshMutexes_free, ?_⟩
  intro checked
  have finishes : (exec (mutexStep checked) (bootState freshMutexes) barging).map
      (fun u => (u.holders 7, (u.header 7).objectType)) = some ([1, 0], .synchronizationMutex) := by
    revert checked
    decide
  obtain ⟨u, run, states⟩ := Option.map_eq_some_iff.mp finishes
  simp only [Prod.mk.injEq] at states
  obtain ⟨holders, mutex⟩ := states
  refine ⟨u, run, mutex, ?_⟩
  intro alone
  have same := alone 1 (by simp [holders]) 0 (by simp [holders])
  omega

end Gr8os.Ex
