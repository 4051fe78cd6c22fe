import Gr8os.Ex.Mutex
import Gr8os.Ke.NotificationEvents
import Mathlib.Data.Finset.Card
import Mathlib.Data.Finset.Dedup

/-! How many waits an event that wakes one waiter satisfies. Neither KeSetEvent nor KeWaitForSingleObject takes back the
signaled state. -/
namespace Gr8os.Ke

open Ps Intrusive Runs Ex

def woken (s u : SchedState) : Nat :=
  (s.threadList.toFinset.filter fun t => (s.thread t).state = .wait ∧ (u.thread t).state ≠ .wait).card

/-- The calls on an event that a run has made so far. -/
structure Tally where
  sets : Nat := 0
  /-- Calls of KeWaitForSingleObject that went on at once, and waiters that were woken. -/
  satisfied : Nat := 0
  /-- Calls of KeSetEvent that found nobody waiting. -/
  idle : Nat := 0
  /-- Calls of KeWaitForSingleObject that found the event signaled. -/
  immediate : Nat := 0
deriving DecidableEq, Repr

def Tally.add (a b : Tally) : Tally :=
  ⟨a.sets + b.sets, a.satisfied + b.satisfied, a.idle + b.idle, a.immediate + b.immediate⟩

/-- What one step adds. -/
def tally (event : Nat) (s u : SchedState) : SchedOp → Tally
  | .wait o =>
    if o = event ∧ (s.header event).signaledState = true then { satisfied := 1, immediate := 1 } else {}
  | .setEvent o _ =>
    if o = event then
      { sets := 1, satisfied := woken s u, idle := if isListEmpty s.waiters (.waitListHead event) then 1 else 0 }
    else {}
  | _ => {}

/-- ExAcquireMutex and ExReleaseMutex are called for other objects. -/
def EventCalls (event : Nat) : SchedOp → Prop
  | .acquire m | .release m => m ≠ event
  | _ => True

instance (event : Nat) : (op : SchedOp) → Decidable (EventCalls event op)
  | .acquire m | .release m => inferInstanceAs (Decidable (m ≠ event))
  | .wait _ | .setEvent _ _ | .create _ | .delay _ | .exit _ | .exitSwap | .terminate _ _ | .quantumEnd => .isTrue trivial

def eventStep (checked : Bool) (event : Nat) (r : SchedState × Tally) (op : SchedOp) : Option (SchedState × Tally) :=
  if EventCalls event op then (schedStep checked r.1 op).map fun u => (u, r.2.add (tally event r.1 u op)) else none

section step

variable {checked : Bool} {s u : SchedState} {op : SchedOp} {event : Nat}

theorem perform_objectType (code : perform checked s op = .ok u) (o : Nat) :
    (u.header o).objectType = (s.header o).objectType := by
  have signaled : ∀ (v : SchedState) (e : Nat) (b : Bool),
      ((v.setSignaled e b).header o).objectType = (v.header o).objectType := by
    intro v e b
    by_cases h : o = e <;> simp [SchedState.setSignaled, h]
  have switched : ∀ {v : SchedState} {return_ : SwapReturn}, pspSwapThread checked v return_ = .ok u →
      v.header = s.header → (u.header o).objectType = (s.header o).objectType := by
    intro v return_ swap same
    rw [← same]
    obtain ⟨call, -, -, effect⟩ := pspSwapThread_effect swap
    cases call with
    | acquireMutex m =>
      rw [effect.1]
      exact signaled v m false
    | _ => rw [effect.1]
  have set : ∀ {v : SchedState} {e : Nat} {inc : BitVec 16} {old : Bool}, keSetEvent checked v e inc = .ok (old, u) →
      v.header = s.header → (u.header o).objectType = (s.header o).objectType := by
    intro v e inc old called same
    rw [← same, (keSetEvent_effect called).1]
    exact signaled v e true
  cases op with
  | create t =>
    obtain ⟨v, locked, rest⟩ := bind_eq_ok.mp code
    cases lock_cases locked
    cases rest
    rfl
  | wait e =>
    obtain ⟨v, locked, rest⟩ := bind_eq_ok.mp code
    cases lock_cases locked
    dsimp only at rest
    split at rest
    · cases rest
      rfl
    · exact switched rest rfl
  | setEvent e inc =>
    cases called : keSetEvent checked s e inc with
    | error h => simp [perform, called, Except.map] at code
    | ok r =>
      have result : r.2 = u := by simpa [perform, called, Except.map] using code
      subst result
      exact set called rfl
  | delay n =>
    obtain ⟨v, locked, rest⟩ := bind_eq_ok.mp code
    cases lock_cases locked
    exact switched rest rfl
  | exit c =>
    obtain ⟨v, locked, rest⟩ := bind_eq_ok.mp code
    cases lock_cases locked
    cases rest
    rfl
  | exitSwap =>
    obtain ⟨v, locked, rest⟩ := bind_eq_ok.mp code
    cases lock_cases locked
    exact switched rest rfl
  | terminate t c =>
    obtain ⟨v, locked, rest⟩ := bind_eq_ok.mp code
    cases lock_cases locked
    cases rest
    rfl
  | quantumEnd =>
    obtain ⟨v, locked, rest⟩ := bind_eq_ok.mp code
    cases lock_cases locked
    exact switched rest rfl
  | acquire m =>
    dsimp only [perform, exAcquireMutex] at code
    split at code
    · cases code
      rfl
    · obtain ⟨v, locked, rest⟩ := bind_eq_ok.mp code
      cases lock_cases locked
      dsimp only at rest
      split at rest
      · cases rest
        exact signaled s m false
      · exact switched rest rfl
  | release m =>
    dsimp only [perform, exReleaseMutex] at code
    split at code
    · cases code
      rfl
    · obtain ⟨r, called, rest⟩ := bind_eq_ok.mp code
      cases rest
      exact set called rfl

theorem woken_none (same : ∀ t, (u.thread t).state = (s.thread t).state) : woken s u = 0 := by
  rw [woken, Finset.card_eq_zero]
  refine Finset.filter_false_of_mem fun t _ stops => ?_
  rw [same t] at stops
  exact stops.2 stops.1

theorem woken_one {t : Nat} (known : t ∈ s.threadList) (waited : (s.thread t).state = .wait)
    (stopped : (u.thread t).state ≠ .wait) (same : ∀ v, v ≠ t → u.thread v = s.thread v) : woken s u = 1 := by
  rw [woken, Finset.card_eq_one]
  refine ⟨t, Finset.ext fun v => ?_⟩
  rw [Finset.mem_filter, List.mem_toFinset, Finset.mem_singleton]
  constructor
  · rintro ⟨-, was, stops⟩
    by_contra other
    rw [same v other] at stops
    exact stops was
  · intro own
    subst own
    exact ⟨known, waited, stopped⟩

theorem keSetEvent_woken {inc : BitVec 16} {old : Bool} {ready wait : List Nat} {queue : Nat → List Nat}
    (ok : Settled s ready wait queue) (kind : (s.header event).objectType = .synchronizationEvent)
    (called : keSetEvent checked s event inc = .ok (old, u)) :
    woken s u + (if isListEmpty s.waiters (.waitListHead event) then 1 else 0) = 1 := by
  obtain ⟨v, locked, rest⟩ := bind_eq_ok.mp called
  cases lock_cases locked
  have settled := ok.setLock true
  have ring := ok.waiters.ring event
  cases h : queue event with
  | nil =>
    rw [h] at ring
    rw [kiSetEvent_idle checked inc settled h, ok_bind] at rest
    cases rest
    rw [if_pos ((isListEmpty_iff ring).mpr rfl), Nat.add_eq_right]
    exact woken_none fun _ => rfl
  | cons t others =>
    rw [h] at ring
    have filled : ¬isListEmpty s.waiters (.waitListHead event) = true := by
      rw [isListEmpty_iff ring]
      simp [blocks]
    have member : t ∈ queue event := by simp [h]
    obtain ⟨state, -⟩ := ok.waiter_waits member
    obtain ⟨start, room⟩ := kiSetEvent_walk checked inc settled h
    obtain ⟨fuel, enough⟩ := Nat.exists_eq_succ_of_ne_zero (Nat.ne_of_gt (Nat.zero_lt_of_lt room))
    have kindAfter : ((SchedState.setSignaled { s with schedulerLock := true } event true).header event).objectType =
        .synchronizationEvent := by
      simpa [SchedState.setSignaled] using kind
    have single := (kiSetEventFrom_first checked inc (settled.setSignaled event true) h fuel).trans (if_pos kindAfter)
    rw [start, enough, Nat.succ_eq_add_one, single] at rest
    cases rest
    rw [if_neg filled]
    refine woken_one (ok.lists.known t (.inr (ok.waiters.waiting event t member))) state ?_ fun v other => unwaited_other other
    change ¬((SchedState.unwaited (SchedState.setSignaled { s with schedulerLock := true } event true) inc t).thread t).state
      = .wait
    rw [unwaited_own]
    decide

/-- Every set that finds nobody pays for one wait that finds the event signaled. -/
def Tally.Balanced (a : Tally) : Prop := a.satisfied + a.idle = a.sets + a.immediate

theorem Tally.Balanced.add {a b : Tally} (one : a.Balanced) (two : b.Balanced) : (a.add b).Balanced := by
  unfold Tally.Balanced at one two ⊢
  simp only [Tally.add]
  omega

theorem tally_balanced (resting : Resting s) (kind : (s.header event).objectType = .synchronizationEvent)
    (code : perform checked s op = .ok u) : (tally event s u op).Balanced := by
  cases op with
  | wait o =>
    rw [tally]
    split <;> rfl
  | setEvent o inc =>
    rw [tally]
    split
    · rename_i own
      subst own
      cases called : keSetEvent checked s o inc with
      | error h => simp [perform, called, Except.map] at code
      | ok r =>
        have result : r.2 = u := by simpa [perform, called, Except.map] using code
        subst result
        cases resting with
        | free settled unlocked =>
          have one := keSetEvent_woken settled kind called
          exact one
        | stuck lists locked =>
          rw [keSetEvent, lock_error locked, error_bind] at called
          cases called
    · rfl
  | _ => rfl

end step

/-- The object is an event that wakes one waiter, in a state that the scheduler can be in, and the calls add up. -/
structure Accounted (event : Nat) (r : SchedState × Tally) : Prop where
  resting : Resting r.1
  kind : (r.1.header event).objectType = .synchronizationEvent
  balanced : r.2.Balanced

/-- The steps of a run in which no quantum ends inside the tail of PsExitThread. -/
def CalmEventStep (checked : Bool) (event : Nat) : SchedState × Tally → SchedOp → SchedState × Tally → Prop :=
  Guarded (fun r op => ExitUninterrupted r.1 op) fun r op t => eventStep checked event r op = some t

theorem accounted_step {checked : Bool} {event : Nat} {r t : SchedState × Tally} {op : SchedOp}
    (ok : Accounted event r) (step : CalmEventStep checked event r op t) : Accounted event t := by
  obtain ⟨calm, stepped⟩ := step
  obtain ⟨-, mapped⟩ := Option.ite_none_right_eq_some.mp stepped
  obtain ⟨u, performed, rfl⟩ := Option.map_eq_some_iff.mp mapped
  have code : perform checked r.1 op = .ok u := by
    obtain ⟨-, result⟩ := Option.ite_none_right_eq_some.mp performed
    cases ran : perform checked r.1 op with
    | error h => simp [ran, Except.toOption] at result
    | ok v => simpa [ran, Except.toOption] using result
  exact ⟨(resting_step checked op ok.resting calm performed).1, (perform_objectType code event).trans ok.kind,
    ok.balanced.add (tally_balanced ok.resting ok.kind code)⟩

/-- At any point of a run the event has satisfied at most as many waits as it was set, if the waits that found it signaled
are at most as many as the sets that found nobody waiting, and only then. -/
theorem event_satisfied_iff (checked : Bool) {systemThread event : Nat} {s : SchedState} {r : SchedState × Tally}
    {ops : List SchedOp} (boot : Booted s systemThread) (kind : (s.header event).objectType = .synchronizationEvent)
    (run : Run (CalmEventStep checked event) (s, {}) ops r) :
    r.2.satisfied ≤ r.2.sets ↔ r.2.immediate ≤ r.2.idle := by
  have ok : Accounted event r :=
    run.invariant (I := Accounted event) accounted_step ⟨.free boot.settled boot.unlocked, kind, rfl⟩
  have balanced : r.2.satisfied + r.2.idle = r.2.sets + r.2.immediate := ok.balanced
  omega

/-- Two waiters are woken, and then a set finds nobody and the next wait goes on at once. -/
def pairedCalls : List SchedOp :=
  [.create 1, .create 2, .quantumEnd, .wait 7, .wait 7, .setEvent 7 0, .setEvent 7 0, .setEvent 7 0, .wait 7]

theorem pairedCalls_satisfied : ∃ r, Run (CalmEventStep true 7) (bootState oneEvent, {}) pairedCalls r ∧
    r.2 = ⟨3, 3, 1, 1⟩ ∧ r.2.satisfied ≤ r.2.sets := by
  have finishes : (exec (guarded (fun r op => ExitUninterrupted r.1 op) (eventStep true 7)) (bootState oneEvent, {})
      pairedCalls).map Prod.snd = some ⟨3, 3, 1, 1⟩ := by
    decide
  obtain ⟨r, run, counts⟩ := Option.map_eq_some_iff.mp finishes
  refine ⟨r, guarded_run run, counts, ?_⟩
  refine (event_satisfied_iff true (bootState_booted oneEvent) rfl (guarded_run run)).mpr ?_
  rw [counts]

def staleSignal : List SchedOp := [.setEvent 7 0, .wait 7, .wait 7]

theorem staleSignal_twice : ((bootState oneEvent).header 7).objectType = .synchronizationEvent ∧
    ((bootState oneEvent).header 7).signaledState = false ∧ ∀ checked : Bool, ∃ r,
      Run (CalmEventStep checked 7) (bootState oneEvent, {}) staleSignal r ∧ ¬r.2.satisfied ≤ r.2.sets := by
  refine ⟨rfl, rfl, fun checked => ?_⟩
  have finishes : (exec (guarded (fun r op => ExitUninterrupted r.1 op) (eventStep checked 7)) (bootState oneEvent, {})
      staleSignal).map (fun r => (r.2.sets, r.2.satisfied)) = some (1, 2) := by
    revert checked
    decide
  obtain ⟨r, run, counts⟩ := Option.map_eq_some_iff.mp finishes
  simp only [Prod.mk.injEq] at counts
  refine ⟨r, guarded_run run, ?_⟩
  omega

end Gr8os.Ke
