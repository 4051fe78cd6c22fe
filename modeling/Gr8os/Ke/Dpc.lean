import Gr8os.Lib.Run

/-! The queue of deferred procedure calls. An insertion looks for a free slot without the lock and writes
the slot under it; the timer interrupt runs one call of the queue, with the lock held, and no other thread
runs while an entry is written. -/
namespace Gr8os.Ke

open Runs

/-- The function is none where the code has a null pointer. -/
structure DpcQueue where
  function : Option (BitVec 32)
  context : BitVec 32
  /-- Bookkeeping: the insertion that wrote the entry. -/
  call : Nat
deriving DecidableEq, Repr

/-- Where a thread is inside KeInsertQueueDpc. -/
inductive Inserting
  | idle
  | testing (i : Nat) (function context : BitVec 32) (call : Nat)
  | writing (i : Nat) (function context : BitVec 32) (call : Nat)
deriving DecidableEq, Repr

/-- Where the timer interrupt is inside KiProcessDpcQueue. -/
inductive Processing
  | idle
  | calling (dpc : DpcQueue)
  | spinning
deriving DecidableEq, Repr

structure DpcState where
  kiDpcListHead : List DpcQueue
  kiDpcQueueLock : Bool
  inserting : Nat → Inserting
  processing : Processing
  /-- Bookkeeping: how many insertions began, which of them returned a slot, and which calls were run. -/
  calls : Nat
  inserted : List Nat
  ran : List Nat

inductive DpcOp
  | insert (thread : Nat) (function context : BitVec 32)
  | test (thread : Nat)
  | write (thread : Nat)
  | interrupt
  | routineInserts
  | routineReturns
deriving DecidableEq, Repr

def kiNumberDpcs (s : DpcState) : Nat := s.kiDpcListHead.length

def DpcState.setInserting (s : DpcState) (thread : Nat) (where_ : Inserting) : DpcState :=
  { s with inserting := fun t => if t = thread then where_ else s.inserting t }

def beginInsert (s : DpcState) (thread : Nat) (function context : BitVec 32) : Option DpcState :=
  match s.inserting thread with
  | .idle => some { s.setInserting thread (.testing 0 function context s.calls) with calls := s.calls + 1 }
  | _ => none

/-- Past the last slot the insertion returns a null pointer. -/
def testSlot (s : DpcState) (thread : Nat) : Option DpcState :=
  match s.inserting thread with
  | .testing i function context call =>
    match s.kiDpcListHead[i]? with
    | none => some (s.setInserting thread .idle)
    | some dpc =>
      if dpc.function = none then some (s.setInserting thread (.writing i function context call))
      else some (s.setInserting thread (.testing (i + 1) function context call))
  | _ => none

def writeSlot (s : DpcState) (thread : Nat) : Option DpcState :=
  match s.inserting thread with
  | .writing i function context call =>
    if s.kiDpcQueueLock then none
    else some { s.setInserting thread .idle with
      kiDpcListHead := s.kiDpcListHead.set i ⟨some function, context, call⟩
      inserted := s.inserted ++ [call] }
  | _ => none

/-- The loop never moves its pointer on, so that each of its turns looks at the first entry. -/
def findPending (dpc : Option DpcQueue) : Nat → Option DpcQueue
  | 0 => none
  | turns + 1 =>
    match dpc with
    | none => none
    | some entry => if entry.function = none then findPending dpc turns else some entry

/-- Interrupts stay off until the handler returns. -/
def beginProcess (s : DpcState) : Option DpcState :=
  match s.processing with
  | .idle =>
    match findPending s.kiDpcListHead.head? (kiNumberDpcs s) with
    | none => some s
    | some dpc => if s.kiDpcQueueLock then none else some { s with kiDpcQueueLock := true, processing := .calling dpc }
  | _ => none

/-- A routine that inserts a call waits for the lock that its own caller holds, unless every slot is taken. -/
def routineInserts (s : DpcState) : Option DpcState :=
  match s.processing with
  | .calling _ =>
    if s.kiDpcListHead.any fun dpc => dpc.function = none then some { s with processing := .spinning } else some s
  | _ => none

def keRemoveQueueDpc (s : DpcState) (i : Nat) : DpcState :=
  { s with kiDpcListHead := s.kiDpcListHead.set i ⟨none, 0, 0⟩ }

def endProcess (s : DpcState) : Option DpcState :=
  match s.processing with
  | .calling dpc =>
    some { keRemoveQueueDpc s 0 with kiDpcQueueLock := false, processing := .idle, ran := s.ran ++ [dpc.call] }
  | _ => none

def dpcStep (s : DpcState) : DpcOp → Option DpcState
  | .insert thread function context => beginInsert s thread function context
  | .test thread => testSlot s thread
  | .write thread => writeSlot s thread
  | .interrupt => beginProcess s
  | .routineInserts => routineInserts s
  | .routineReturns => endProcess s

/-- A whole run over the queue whose routine inserts nothing. -/
def kiProcessDpcQueue (s : DpcState) : Option DpcState :=
  (beginProcess s).bind fun t => if t.processing = .idle then some t else endProcess t

def processTimes : Nat → DpcState → Option DpcState
  | 0, s => some s
  | n + 1, s => (kiProcessDpcQueue s).bind (processTimes n)

def DpcQueue.pending (dpc : DpcQueue) : Option Nat := dpc.function.map fun _ => dpc.call

/-- The insertions whose calls wait in a slot. -/
def DpcState.pending (s : DpcState) : List Nat := s.kiDpcListHead.filterMap DpcQueue.pending

structure NothingLost (s : DpcState) : Prop where
  accounted : s.inserted.Perm (s.ran ++ s.pending)
  once : s.inserted.Nodup
  returns : s.processing ≠ .spinning
  one : s.processing = .idle → s.pending ≠ [] → ∃ t call, kiProcessDpcQueue s = some t ∧
    t.ran = s.ran ++ [call] ∧ s.pending.Perm (call :: t.pending)
  later : s.processing = .idle → ∀ call ∈ s.pending, ∃ n t, processTimes n s = some t ∧ call ∈ t.ran

def Inserting.call : Inserting → Option Nat
  | .idle => none
  | .testing _ _ _ call | .writing _ _ _ call => some call

/-- Every insertion that is under way has a number of its own. -/
structure Numbered (inserting : Nat → Inserting) (calls : Nat) (inserted : List Nat) : Prop where
  below : ∀ call ∈ inserted, call < calls
  under_way : ∀ t call, (inserting t).call = some call → call < calls ∧ call ∉ inserted
  own : ∀ t u call, (inserting t).call = some call → (inserting u).call = some call → t = u

/-- Only the first slot is ever taken. -/
structure FrontOnly (s : DpcState) : Prop where
  behind : ∀ dpc ∈ s.kiDpcListHead.tail, dpc.function = none
  accounted : s.inserted.Perm (s.ran ++ s.pending)
  once : s.inserted.Nodup
  numbered : Numbered s.inserting s.calls s.inserted
  unlocked : s.processing = .idle → s.kiDpcQueueLock = false
  called : ∀ dpc, s.processing = .calling dpc → s.kiDpcListHead.head? = some dpc ∧ dpc.function ≠ none
  returns : s.processing ≠ .spinning

theorem filterMap_behind {table : List DpcQueue} (behind : ∀ dpc ∈ table.tail, dpc.function = none) :
    table.filterMap DpcQueue.pending = (table.head?.bind DpcQueue.pending).toList := by
  cases table with
  | nil => rfl
  | cons first rest =>
    have none_waits : rest.filterMap DpcQueue.pending = [] := by
      rw [List.filterMap_eq_nil_iff]
      intro dpc member
      simp [DpcQueue.pending, behind dpc member]
    rw [List.filterMap_cons, none_waits]
    cases h : first.pending <;> simp [h]

theorem FrontOnly.pending_eq {s : DpcState} (ok : FrontOnly s) :
    s.pending = (s.kiDpcListHead.head?.bind DpcQueue.pending).toList := filterMap_behind ok.behind

theorem findPending_eq (dpc : Option DpcQueue) (turns : Nat) : findPending dpc turns =
    if turns = 0 then none else dpc.filter fun entry => entry.function ≠ none := by
  induction turns with
  | zero => rfl
  | succ turns ih =>
    cases dpc with
    | none => rfl
    | some entry =>
      rcases Decidable.em (entry.function = none) with free | taken
      · simp [findPending, free, ih, Option.filter]
      · simp [findPending, taken, Option.filter]

theorem Numbered.set {inserting : Nat → Inserting} {calls : Nat} {inserted : List Nat}
    (ok : Numbered inserting calls inserted) (thread : Nat) {where_ : Inserting}
    (same : where_.call = none ∨ where_.call = (inserting thread).call) :
    Numbered (fun t => if t = thread then where_ else inserting t) calls inserted := by
  have before : ∀ t call, (if t = thread then where_ else inserting t).call = some call →
      (inserting t).call = some call := by
    intro t call here
    rcases Decidable.em (t = thread) with rfl | other
    · rw [if_pos rfl] at here
      rcases same with none | same
      · exact absurd (none.symm.trans here) (by simp)
      · exact same.symm.trans here
    · rwa [if_neg other] at here
  constructor
  · exact ok.below
  · intro t call here
    exact ok.under_way t call (before t call here)
  · intro t u call first second
    exact ok.own t u call (before t call first) (before u call second)

theorem FrontOnly.moved {s : DpcState} (ok : FrontOnly s) (thread : Nat) {where_ : Inserting}
    (same : where_.call = none ∨ where_.call = (s.inserting thread).call) :
    FrontOnly (s.setInserting thread where_) where
  behind := ok.behind
  accounted := ok.accounted
  once := ok.once
  numbered := ok.numbered.set thread same
  unlocked := ok.unlocked
  called := ok.called
  returns := ok.returns

theorem beginInsert_front {s t : DpcState} {thread : Nat} {function context : BitVec 32} (ok : FrontOnly s)
    (step : beginInsert s thread function context = some t) : FrontOnly t := by
  unfold beginInsert at step
  split at step
  · rename_i idle
    cases Option.some.inj step
    refine ⟨ok.behind, ok.accounted, ok.once, ?_, ok.unlocked, ok.called, ok.returns⟩
    have mine : ∀ u call, ((s.setInserting thread (.testing 0 function context s.calls)).inserting u).call = some call →
        u = thread ∧ call = s.calls ∨ u ≠ thread ∧ (s.inserting u).call = some call := by
      intro u call here
      simp only [DpcState.setInserting] at here
      split at here
      · exact .inl ⟨‹_›, (Option.some.inj here).symm⟩
      · exact .inr ⟨‹_›, here⟩
    constructor
    · intro call member
      exact Nat.lt_succ_of_lt (ok.numbered.below call member)
    · intro u call here
      rcases mine u call here with ⟨_, rfl⟩ | ⟨_, before⟩
      · refine ⟨Nat.lt_succ_self _, fun member => ?_⟩
        exact absurd (ok.numbered.below _ member) (Nat.lt_irrefl _)
      · have old := ok.numbered.under_way u call before
        exact ⟨Nat.lt_succ_of_lt old.1, old.2⟩
    · intro u v call first second
      rcases mine u call first with ⟨rfl, rfl⟩ | ⟨_, before⟩
      · rcases mine v _ second with ⟨rfl, _⟩ | ⟨_, before'⟩
        · rfl
        · exact absurd (ok.numbered.under_way v _ before').1 (Nat.lt_irrefl _)
      · rcases mine v call second with ⟨_, rfl⟩ | ⟨_, before'⟩
        · exact absurd (ok.numbered.under_way u _ before).1 (Nat.lt_irrefl _)
        · exact ok.numbered.own u v call before before'
  · cases step

theorem testSlot_front {s t : DpcState} {thread : Nat} (ok : FrontOnly s) (step : testSlot s thread = some t) :
    FrontOnly t := by
  unfold testSlot at step
  split at step
  · rename_i i function context call here
    split at step
    · cases Option.some.inj step
      exact ok.moved thread (.inl rfl)
    · split at step
      · cases Option.some.inj step
        exact ok.moved thread (.inr (by rw [here]; rfl))
      · cases Option.some.inj step
        exact ok.moved thread (.inr (by rw [here]; rfl))
  · cases step

/-- The insertion writes the first slot, which is free, and no routine inserts while there is a free slot. -/
def DpcSafe (s : DpcState) : DpcOp → Prop
  | .write thread => ∀ i function context call, s.inserting thread = .writing i function context call →
      i = 0 ∧ ∃ dpc, s.kiDpcListHead.head? = some dpc ∧ dpc.function = none
  | .routineInserts => ∀ dpc ∈ s.kiDpcListHead, dpc.function ≠ none
  | _ => True

theorem head?_set_zero {table : List DpcQueue} {dpc : DpcQueue} (head : table.head? = some dpc) (entry : DpcQueue) :
    (table.set 0 entry).head? = some entry ∧ (table.set 0 entry).tail = table.tail := by
  cases table with
  | nil => cases head
  | cons => exact ⟨rfl, rfl⟩

theorem writeSlot_front {s t : DpcState} {thread : Nat} (ok : FrontOnly s) (safe : DpcSafe s (.write thread))
    (step : writeSlot s thread = some t) : FrontOnly t := by
  unfold writeSlot at step
  split at step
  · rename_i i function context call here
    split at step
    · cases step
    · rename_i unlocked
      obtain ⟨rfl, dpc, head, free⟩ := safe _ _ _ _ here
      cases Option.some.inj step
      obtain ⟨newHead, sameTail⟩ := head?_set_zero head ⟨some function, context, call⟩
      have mine : (s.inserting thread).call = some call := by rw [here]; rfl
      have new := ok.numbered.under_way thread call mine
      have moved := @Numbered.set _ _ _ ok.numbered thread .idle (.inl rfl)
      have behind : ∀ dpc ∈ (s.kiDpcListHead.set 0 ⟨some function, context, call⟩).tail, dpc.function = none := by
        rw [sameTail]
        exact ok.behind
      have before : s.pending = [] := by
        rw [ok.pending_eq, head]
        simp [DpcQueue.pending, free]
      refine ⟨behind, ?_, ?_, ⟨?_, ?_, moved.own⟩, ?_, ?_, ok.returns⟩
      · have accounted := ok.accounted
        rw [before, List.append_nil] at accounted
        have after : (s.kiDpcListHead.set 0 ⟨some function, context, call⟩).filterMap DpcQueue.pending = [call] := by
          rw [filterMap_behind behind, newHead]
          rfl
        show (s.inserted ++ [call]).Perm (s.ran ++ _)
        rw [DpcState.pending, after]
        exact accounted.append_right [call]
      · exact List.nodup_append.mpr ⟨ok.once, by simp, by
          intro x member y last
          rw [List.mem_singleton.mp last]
          rintro rfl
          exact new.2 member⟩
      · intro x member
        rcases List.mem_append.mp member with old | last
        · exact ok.numbered.below x old
        · rw [List.mem_singleton.mp last]
          exact new.1
      · intro u x under_way
        have old := moved.under_way u x under_way
        refine ⟨old.1, fun member => ?_⟩
        rcases List.mem_append.mp member with inserted | last
        · exact old.2 inserted
        · rw [List.mem_singleton.mp last] at under_way
          simp only [DpcState.setInserting] at under_way
          split at under_way
          · cases under_way
          · exact absurd (ok.numbered.own u thread call under_way mine) ‹_›
      · intro _
        exact Bool.eq_false_iff.mpr unlocked
      · intro dpc' calling
        have taken := ok.called dpc' calling
        rw [head] at taken
        cases Option.some.inj taken.1
        exact absurd free taken.2
  · cases step

theorem beginProcess_cases {s t : DpcState} (step : beginProcess s = some t) : s.processing = .idle ∧
    ((∀ dpc, s.kiDpcListHead.head? = some dpc → dpc.function = none) ∧ t = s ∨
      ∃ dpc, s.kiDpcListHead.head? = some dpc ∧ dpc.function ≠ none ∧
        t = { s with kiDpcQueueLock := true, processing := .calling dpc }) := by
  unfold beginProcess at step
  split at step
  · rename_i idle
    refine ⟨idle, ?_⟩
    rw [findPending_eq] at step
    cases table : s.kiDpcListHead with
    | nil =>
      left
      simp [table, kiNumberDpcs] at step
      exact ⟨fun dpc head => absurd head (by simp), step.symm⟩
    | cons first rest =>
      rcases Decidable.em (first.function = none) with free | taken
      · left
        simp [table, kiNumberDpcs, free, Option.filter] at step
        refine ⟨fun dpc head => ?_, step.symm⟩
        cases Option.some.inj head
        exact free
      · right
        simp [table, kiNumberDpcs, taken, Option.filter] at step
        exact ⟨first, rfl, taken, step.2.symm⟩
  · cases step

theorem beginProcess_front {s t : DpcState} (ok : FrontOnly s) (step : beginProcess s = some t) : FrontOnly t := by
  obtain ⟨_, ⟨_, rfl⟩ | ⟨dpc, head, taken, rfl⟩⟩ := beginProcess_cases step
  · exact ok
  · refine ⟨ok.behind, ok.accounted, ok.once, ok.numbered, fun idle => absurd idle (by simp), ?_, by simp⟩
    intro dpc' calling
    cases Processing.calling.inj calling
    exact ⟨head, taken⟩

theorem routineInserts_front {s t : DpcState} (ok : FrontOnly s) (safe : DpcSafe s .routineInserts)
    (step : routineInserts s = some t) : FrontOnly t := by
  unfold routineInserts at step
  split at step
  · have taken : ∀ dpc ∈ s.kiDpcListHead, dpc.function ≠ none := safe
    have full : ¬ (s.kiDpcListHead.any fun dpc => dpc.function = none) = true := by simpa using taken
    rw [if_neg full] at step
    cases Option.some.inj step
    exact ok
  · cases step

theorem endProcess_cases {s t : DpcState} (step : endProcess s = some t) : ∃ dpc, s.processing = .calling dpc ∧
    t = { keRemoveQueueDpc s 0 with kiDpcQueueLock := false, processing := .idle, ran := s.ran ++ [dpc.call] } := by
  unfold endProcess at step
  split at step
  · rename_i dpc calling
    exact ⟨dpc, calling, (Option.some.inj step).symm⟩
  · cases step

theorem endProcess_front {s t : DpcState} (ok : FrontOnly s) (step : endProcess s = some t) :
    FrontOnly t ∧ ∃ call, s.pending = [call] ∧ t.pending = [] ∧ t.ran = s.ran ++ [call] ∧ t.processing = .idle := by
  obtain ⟨dpc, calling, rfl⟩ := endProcess_cases step
  obtain ⟨head, taken⟩ := ok.called dpc calling
  obtain ⟨newHead, sameTail⟩ := head?_set_zero head ⟨none, 0, 0⟩
  have behind : ∀ dpc ∈ (s.kiDpcListHead.set 0 ⟨none, 0, 0⟩).tail, dpc.function = none := by
    rw [sameTail]
    exact ok.behind
  have before : s.pending = [dpc.call] := by
    rw [ok.pending_eq, head]
    cases function : dpc.function with
    | none => exact absurd function taken
    | some f => simp [DpcQueue.pending, function]
  have after : (s.kiDpcListHead.set 0 ⟨none, 0, 0⟩).filterMap DpcQueue.pending = [] := by
    rw [filterMap_behind behind, newHead]
    rfl
  refine ⟨⟨behind, ?_, ok.once, ok.numbered, fun _ => rfl, fun _ calling => absurd calling (by simp), by simp⟩,
    dpc.call, before, after, rfl, rfl⟩
  have accounted := ok.accounted
  rw [before] at accounted
  show s.inserted.Perm (s.ran ++ [dpc.call] ++ _)
  rw [DpcState.pending, keRemoveQueueDpc, after, List.append_nil]
  exact accounted

theorem dpcStep_front {s t : DpcState} {op : DpcOp} (ok : FrontOnly s)
    (step : Guarded DpcSafe (fun s op t => dpcStep s op = some t) s op t) : FrontOnly t := by
  obtain ⟨safe, step⟩ := step
  cases op with
  | insert thread function context => exact beginInsert_front ok step
  | test thread => exact testSlot_front ok step
  | write thread => exact writeSlot_front ok safe step
  | interrupt => exact beginProcess_front ok step
  | routineInserts => exact routineInserts_front ok safe step
  | routineReturns => exact (endProcess_front ok step).1

/-- With a call in the first slot a run over the queue runs and removes it. -/
theorem FrontOnly.process {s : DpcState} (ok : FrontOnly s) (idle : s.processing = .idle) (waits : s.pending ≠ []) :
    ∃ t call, kiProcessDpcQueue s = some t ∧ t.ran = s.ran ++ [call] ∧ s.pending = [call] ∧ t.pending = [] := by
  have unlocked := ok.unlocked idle
  rw [ok.pending_eq] at waits
  cases table : s.kiDpcListHead with
  | nil => simp [table] at waits
  | cons first rest =>
    have taken : first.function ≠ none := by
      intro free
      simp [table, DpcQueue.pending, free] at waits
    have begins : beginProcess s = some { s with kiDpcQueueLock := true, processing := .calling first } := by
      unfold beginProcess
      simp [idle, findPending_eq, kiNumberDpcs, table, taken, unlocked, Option.filter]
    have started := beginProcess_front ok begins
    have ended : endProcess { s with kiDpcQueueLock := true, processing := .calling first } = some _ := rfl
    obtain ⟨_, call, before, after, ran, _⟩ := endProcess_front started ended
    refine ⟨_, call, ?_, ran, before, after⟩
    rw [kiProcessDpcQueue, begins, Option.bind_some]
    exact (if_neg (by simp)).trans ended

theorem FrontOnly.nothing_lost {s : DpcState} (ok : FrontOnly s) : NothingLost s := by
  refine ⟨ok.accounted, ok.once, ok.returns, ?_, ?_⟩
  · intro idle waits
    obtain ⟨t, call, run, ran, before, after⟩ := ok.process idle waits
    exact ⟨t, call, run, ran, by rw [before, after]⟩
  · intro idle call member
    obtain ⟨t, call', run, ran, before, _⟩ := ok.process idle (List.ne_nil_of_mem member)
    rw [before, List.mem_singleton] at member
    exact ⟨1, t, by simp [processTimes, run], by simp [ran, member]⟩

/-- The queue as it is cleared at boot: no thread is inside an insertion. -/
structure Cleared (s : DpcState) : Prop where
  free : ∀ dpc ∈ s.kiDpcListHead, dpc.function = none
  idle : ∀ t, s.inserting t = .idle
  processing : s.processing = .idle
  unlocked : s.kiDpcQueueLock = false
  inserted : s.inserted = []
  ran : s.ran = []

theorem Cleared.front {s : DpcState} (ok : Cleared s) : FrontOnly s where
  behind dpc member := ok.free dpc (List.mem_of_mem_tail member)
  accounted := by
    have none_waits : s.pending = [] := by
      rw [DpcState.pending, List.filterMap_eq_nil_iff]
      intro dpc member
      simp [DpcQueue.pending, ok.free dpc member]
    simp [ok.inserted, ok.ran, none_waits]
  once := by simp [ok.inserted]
  numbered := by
    constructor
    · simp [ok.inserted]
    · simp [ok.idle, Inserting.call]
    · simp [ok.idle, Inserting.call]
  unlocked _ := ok.unlocked
  called dpc calling := by simp [ok.processing] at calling
  returns := by simp [ok.processing]

/-- The ten slots that the kernel reserves. -/
def kiClearDpcQueue : DpcState where
  kiDpcListHead := List.replicate 10 ⟨none, 0, 0⟩
  kiDpcQueueLock := false
  inserting := fun _ => .idle
  processing := .idle
  calls := 0
  inserted := []
  ran := []

theorem kiClearDpcQueue_cleared : Cleared kiClearDpcQueue where
  free dpc member := by rw [List.eq_of_mem_replicate member]
  idle _ := rfl
  processing := rfl
  unlocked := rfl
  inserted := rfl
  ran := rfl

def insertOne : List DpcOp := [.insert 0 0x80100000 5, .test 0, .write 0]

/-- Two calls are inserted and the first one is run. -/
def insertTwo : List DpcOp :=
  [.insert 0 0x80100000 5, .test 0, .write 0, .insert 1 0x80100000 6, .test 1, .test 1, .write 1, .interrupt,
    .routineReturns]

end Gr8os.Ke
