import Mathlib.Algebra.Group.Nat.Defs
import Mathlib.Data.Finset.Card
import Mathlib.Data.Finset.Range
import Gr8os.Lib.Run
import Gr8os.Ob.References

/-! Threads that drop their last references on one object at the same time. A step is one access to the header,
in ObDereferenceObject and then in ObpDeleteObjectInternal. -/
namespace Gr8os.Ob.Race

open Runs

/-- What a thread does next. -/
inductive Pc
  | decrement
  | readCount
  | readPermanent
  | readPending
  | readHandleCount
  | recheckCount
  | markInProgress
  | unlink
  | deleteRoutine
  | freeName
  | freeHeader
  | finished
  | stopped
deriving DecidableEq, Repr

/-- The header as the threads share it. `entered` lists the calls of ObpDeleteObjectInternal, newest first,
`reachedZero` is the thread whose decrement made the count zero, and `readFreed` tells whether the header
was read or written after it was freed. -/
structure State where
  pc : Nat → Pc
  referenceCount : BitVec 32
  handleCount : BitVec 32
  flags : BitVec 32
  freed : Bool
  entered : List Nat
  reachedZero : Option Nat
  readFreed : Bool

def State.goto (s : State) (t : Nat) (pc : Pc) : State :=
  { s with pc := fun u => if u = t then pc else s.pc u, readFreed := s.readFreed || s.freed }

/-- The call of ObpDeleteObjectInternal. -/
def State.enter (s : State) (t : Nat) (checked : Bool) : State :=
  if checked then s.goto t .readHandleCount else { s.goto t .recheckCount with entered := t :: s.entered }

/-- The next access of a thread to the header. -/
def step (checked : Bool) (s : State) (t : Nat) : Option State :=
  match s.pc t with
  | .decrement =>
    let s' := { s.goto t .readCount with referenceCount := s.referenceCount - 1 }
    some (if s.referenceCount = 1 then { s' with reachedZero := some t } else s')
  | .readCount => some (s.goto t (if s.referenceCount = 0 then .readPermanent else .finished))
  | .readPermanent =>
    some (if s.flags &&& objPermanent = 0 then s.enter t checked else s.goto t .readPending)
  | .readPending =>
    some (if s.flags &&& objDeletePending ≠ 0 then s.enter t checked else s.goto t .finished)
  | .readHandleCount =>
    some (if s.handleCount = 0 then { s.goto t .recheckCount with entered := t :: s.entered } else s.goto t .stopped)
  | .recheckCount => some (s.goto t (if s.referenceCount = 0 then .markInProgress else .finished))
  | .markInProgress => some { s.goto t .unlink with flags := s.flags ||| objDeleteInProgress }
  | .unlink => some (s.goto t .deleteRoutine)
  | .deleteRoutine => some (s.goto t .freeName)
  | .freeName => some (s.goto t .freeHeader)
  | .freeHeader => some { s.goto t .finished with freed := true }
  | .finished => none
  | .stopped => none

/-- Each of `n` threads holds one reference, and there are no handles. -/
def start (n : Nat) (flags : BitVec 32) : State where
  pc t := if t < n then .decrement else .finished
  referenceCount := BitVec.ofNat 32 n
  handleCount := 0
  flags := flags
  freed := false
  entered := []
  reachedZero := none
  readFreed := false

/-- No decrement takes the count to zero while another of the `n` threads is between its own decrement and its
second read of the count. -/
def Undisturbed (n : Nat) (s : State) (t : Nat) : Prop :=
  s.pc t = .decrement → s.referenceCount = 1 → ∀ u < n, s.pc u ≠ .readCount

instance (n : Nat) (s : State) (t : Nat) : Decidable (Undisturbed n s t) := inferInstanceAs (Decidable (_ → _))

/-- The threads that have yet to drop their reference. -/
def State.holding (s : State) (n : Nat) : Finset Nat := (Finset.range n).filter fun t => s.pc t = .decrement

/-- The object is deleted when it is unused. -/
def Deletable (flags : BitVec 32) : Prop := flags &&& objPermanent = 0 ∨ flags &&& objDeletePending ≠ 0

/-- Not yet in ObpDeleteObjectInternal. -/
def Pc.outer : Pc → Bool
  | .decrement | .readCount | .readPermanent | .readPending | .readHandleCount => true
  | _ => false

/-- While references are out, nobody is deleting. -/
structure Counting (n : Nat) (s : State) : Prop where
  count : s.referenceCount.toNat = (s.holding n).card
  positive : 0 < (s.holding n).card
  early : ∀ t, s.pc t = .decrement ∨ s.pc t = .readCount ∨ s.pc t = .finished
  outside : ∀ t, n ≤ t → s.pc t = .finished
  kept : s.freed = false
  unentered : s.entered = []
  unread : s.readFreed = false

/-- Once the count is zero, the thread that made it so is alone. -/
structure Deleting (n : Nat) (s : State) (t : Nat) : Prop where
  zero : s.referenceCount = 0
  reached : s.reachedZero = some t
  inside : t < n
  alone : ∀ u ≠ t, s.pc u = .finished
  past : s.pc t ≠ .decrement ∧ s.pc t ≠ .stopped
  permanent : s.pc t = .readPending → s.flags &&& objPermanent ≠ 0
  entered : s.entered = if (s.pc t).outer then [] else [t]
  freed : s.freed = true ↔ s.pc t = .finished
  unread : s.readFreed = false

def Phase (n : Nat) (s : State) : Prop :=
  s.handleCount = 0 ∧ Deletable s.flags ∧ (Counting n s ∨ ∃ t, Deleting n s t)

@[simp] theorem goto_pc_self (s : State) (t : Nat) (pc : Pc) : (s.goto t pc).pc t = pc := if_pos rfl

theorem goto_pc_of_ne (s : State) {t u : Nat} (pc : Pc) (other : u ≠ t) : (s.goto t pc).pc u = s.pc u := if_neg other

theorem holding_goto {s : State} {n t : Nat} {pc : Pc} (moved : pc ≠ .decrement) :
    (s.goto t pc).holding n = (s.holding n).erase t := by
  apply Finset.ext
  intro u
  simp only [State.holding, Finset.mem_filter, Finset.mem_erase]
  rcases Decidable.em (u = t) with rfl | other
  · simp [moved]
  · simp [goto_pc_of_ne s pc other, other]

theorem deletable_inProgress {flags : BitVec 32} (deletable : Deletable flags) :
    Deletable (flags ||| objDeleteInProgress) := by
  have permanent : (flags ||| objDeleteInProgress) &&& objPermanent = flags &&& objPermanent := by
    rw [BitVec.and_or_distrib_right]
    exact BitVec.or_zero
  have pending : (flags ||| objDeleteInProgress) &&& objDeletePending = flags &&& objDeletePending := by
    rw [BitVec.and_or_distrib_right]
    exact BitVec.or_zero
  unfold Deletable
  rw [permanent, pending]
  exact deletable

section steps

variable {checked : Bool} {n t : Nat} {s v : State}

/-- Dropping a reference that is not the last keeps the count; dropping the last one starts the deletion. -/
theorem Counting.decrementStep (ok : Counting n s) (guard : Undisturbed n s t) (at_ : s.pc t = .decrement)
    (run : step checked s t = some v) : Counting n v ∨ Deleting n v t := by
  have inside : t < n := by
    apply Decidable.byContradiction
    intro outside
    rw [ok.outside t (by omega)] at at_
    contradiction
  have member : t ∈ s.holding n := Finset.mem_filter.mpr ⟨Finset.mem_range.mpr inside, at_⟩
  have fewer := Finset.card_erase_of_mem member
  have count := ok.count
  simp only [step, at_] at run
  split at run
  · rename_i last
    cases Option.some.inj run
    have one : (s.holding n).card = 1 := by
      rw [← count, last]
      rfl
    refine .inr ⟨?_, rfl, inside, fun u other => ?_, ?_, fun pending => ?_, ?_, ?_, ?_⟩
    · change s.referenceCount - 1 = 0
      rw [last]
      rfl
    · change (s.goto t .readCount).pc u = .finished
      rw [goto_pc_of_ne s _ other]
      rcases ok.early u with holds | reads | done
      · have insideU : u < n := by
          apply Decidable.byContradiction
          intro outside
          rw [ok.outside u (by omega)] at holds
          contradiction
        have memberU : u ∈ s.holding n := Finset.mem_filter.mpr ⟨Finset.mem_range.mpr insideU, holds⟩
        exact absurd (Finset.card_le_one.mp (Nat.le_of_eq one) u memberU t member) other
      · have insideU : u < n := by
          apply Decidable.byContradiction
          intro outside
          rw [ok.outside u (by omega)] at reads
          contradiction
        exact absurd reads (guard at_ last u insideU)
      · exact done
    · change (s.goto t .readCount).pc t ≠ _ ∧ (s.goto t .readCount).pc t ≠ _
      rw [goto_pc_self]
      decide
    · change (s.goto t .readCount).pc t = _ at pending
      rw [goto_pc_self] at pending
      contradiction
    · change s.entered = if ((s.goto t .readCount).pc t).outer then _ else _
      rw [goto_pc_self, ok.unentered]
      rfl
    · change s.freed = true ↔ (s.goto t .readCount).pc t = _
      rw [goto_pc_self, ok.kept]
      decide
    · change (s.readFreed || s.freed) = false
      rw [ok.unread, ok.kept]
      rfl
  · rename_i more
    cases Option.some.inj run
    have moved : State.holding { s.goto t .readCount with referenceCount := s.referenceCount - 1 } n =
        (s.holding n).erase t := holding_goto (by decide)
    have many : s.referenceCount.toNat ≠ 1 := fun one => more (BitVec.eq_of_toNat_eq one)
    have positive' := ok.positive
    refine .inl ⟨?_, ?_, fun u => ?_, fun u outside => ?_, ok.kept, ok.unentered, ?_⟩
    · rw [moved, fewer, ← count]
      change (s.referenceCount - 1).toNat = _
      have positive : s.referenceCount.toNat ≠ 0 := by omega
      bv_omega
    · rw [moved, fewer]
      omega
    · change (s.goto t .readCount).pc u = _ ∨ (s.goto t .readCount).pc u = _ ∨ (s.goto t .readCount).pc u = _
      rcases Decidable.em (u = t) with rfl | other
      · rw [goto_pc_self]
        exact .inr (.inl rfl)
      · rw [goto_pc_of_ne s _ other]
        exact ok.early u
    · change (s.goto t .readCount).pc u = _
      have other : u ≠ t := by omega
      rw [goto_pc_of_ne s _ other]
      exact ok.outside u outside
    · change (s.readFreed || s.freed) = false
      rw [ok.unread, ok.kept]
      rfl

/-- A second read of the count before it is zero ends the call. -/
theorem Counting.readCountStep (ok : Counting n s) (at_ : s.pc t = .readCount) (run : step checked s t = some v) :
    Counting n v := by
  have positive : s.referenceCount ≠ 0 := by
    intro zero
    have count := ok.count
    have positive' := ok.positive
    rw [zero] at count
    exact absurd count (by simp; omega)
  simp only [step, at_, if_neg positive] at run
  cases Option.some.inj run
  have apart : t ∉ s.holding n := by
    intro member
    have holds := (Finset.mem_filter.mp member).2
    rw [at_] at holds
    contradiction
  have same : (s.goto t .finished).holding n = s.holding n :=
    (holding_goto (by decide)).trans (Finset.erase_eq_of_notMem apart)
  refine ⟨?_, ?_, fun u => ?_, fun u outside => ?_, ok.kept, ok.unentered, ?_⟩
  · rw [same]
    exact ok.count
  · rw [same]
    exact ok.positive
  · rcases Decidable.em (u = t) with rfl | other
    · rw [goto_pc_self]
      exact .inr (.inr rfl)
    · rw [goto_pc_of_ne s _ other]
      exact ok.early u
  · rcases Decidable.em (u = t) with rfl | other
    · rw [goto_pc_self]
    · rw [goto_pc_of_ne s _ other]
      exact ok.outside u outside
  · change (s.readFreed || s.freed) = false
    rw [ok.unread, ok.kept]
    rfl

theorem Deleting.kept (ok : Deleting n s t) (running : s.pc t ≠ .finished) : s.freed = false := by
  cases gone : s.freed with
  | false => rfl
  | true => exact absurd (ok.freed.mp gone) running

theorem Deleting.advance (ok : Deleting n s t) (running : s.pc t ≠ .finished) (pc : Pc)
    (moved : v.pc = (s.goto t pc).pc) (count : v.referenceCount = s.referenceCount)
    (reached : v.reachedZero = s.reachedZero) (past : pc ≠ .decrement ∧ pc ≠ .stopped)
    (permanent : pc = .readPending → v.flags &&& objPermanent ≠ 0)
    (entered : v.entered = if pc.outer then [] else [t]) (freed : v.freed = true ↔ pc = .finished)
    (read : v.readFreed = (s.readFreed || s.freed)) : Deleting n v t := by
  have here : v.pc t = pc := by rw [moved, goto_pc_self]
  refine ⟨count.trans ok.zero, reached.trans ok.reached, ok.inside, fun u other => ?_, here ▸ past, here ▸ permanent,
    here ▸ entered, here ▸ freed, ?_⟩
  · rw [moved, goto_pc_of_ne s pc other]
    exact ok.alone u other
  · rw [read, ok.unread, ok.kept running]
    rfl

theorem Deleting.pass (ok : Deleting n s t) (running : s.pc t ≠ .finished) (pc : Pc) (flags : BitVec 32)
    (past : pc ≠ .decrement ∧ pc ≠ .stopped ∧ pc ≠ .finished) (same : pc.outer = (s.pc t).outer)
    (permanent : pc = .readPending → flags &&& objPermanent ≠ 0) :
    Deleting n { s.goto t pc with flags := flags } t := by
  have kept := ok.kept running
  refine ok.advance running pc rfl rfl rfl ⟨past.1, past.2.1⟩ permanent (same ▸ ok.entered) ⟨fun gone => ?_, fun done => ?_⟩ rfl
  · exact absurd (kept.symm.trans gone) Bool.false_ne_true
  · exact absurd done past.2.2

/-- The call of ObpDeleteObjectInternal, at once or after the assertion of the checked build. -/
theorem Deleting.call (ok : Deleting n s t) (running : s.pc t ≠ .finished) (outer : (s.pc t).outer = true) :
    Deleting n { s.goto t .recheckCount with entered := t :: s.entered } t := by
  have unentered : s.entered = [] := by rw [ok.entered, if_pos outer]
  have kept := ok.kept running
  refine ok.advance running .recheckCount rfl rfl rfl (by decide) (fun pending => absurd pending (by decide))
    (congrArg (t :: ·) unentered) ⟨fun gone => ?_, fun done => absurd done (by decide)⟩ rfl
  exact absurd (kept.symm.trans gone) Bool.false_ne_true

theorem Deleting.enterStep (ok : Deleting n s t) (running : s.pc t ≠ .finished) (outer : (s.pc t).outer = true) :
    Deleting n (s.enter t checked) t := by
  cases checked with
  | true => exact ok.pass running .readHandleCount s.flags (by decide) outer.symm fun pending => absurd pending (by decide)
  | false => exact ok.call running outer

/-- Only the deleting thread moves, and it goes through the deletion once. -/
theorem Deleting.nextStep {u : Nat} (ok : Deleting n s t) (noHandles : s.handleCount = 0) (deletable : Deletable s.flags)
    (run : step checked s u = some v) : Deleting n v t := by
  have same : u = t := by
    apply Decidable.byContradiction
    intro other
    simp only [step, ok.alone u other] at run
    contradiction
  subst same
  have running : s.pc u ≠ .finished := by
    intro done
    simp only [step, done] at run
    contradiction
  cases at_ : s.pc u with
  | decrement => exact absurd at_ ok.past.1
  | stopped => exact absurd at_ ok.past.2
  | finished => exact absurd at_ running
  | readCount =>
    simp only [step, at_, if_pos ok.zero] at run
    cases Option.some.inj run
    exact ok.pass running .readPermanent s.flags (by decide) (at_ ▸ rfl) fun pending => absurd pending (by decide)
  | readPermanent =>
    simp only [step, at_] at run
    cases Option.some.inj run
    split
    · exact ok.enterStep running (at_ ▸ rfl)
    · rename_i permanent
      exact ok.pass running .readPending s.flags (by decide) (at_ ▸ rfl) fun _ => permanent
  | readPending =>
    have pending : s.flags &&& objDeletePending ≠ 0 := deletable.resolve_left (ok.permanent at_)
    simp only [step, at_, if_pos pending] at run
    cases Option.some.inj run
    exact ok.enterStep running (at_ ▸ rfl)
  | readHandleCount =>
    simp only [step, at_, if_pos noHandles] at run
    cases Option.some.inj run
    exact ok.call running (at_ ▸ rfl)
  | recheckCount =>
    simp only [step, at_, if_pos ok.zero] at run
    cases Option.some.inj run
    exact ok.pass running .markInProgress s.flags (by decide) (at_ ▸ rfl) fun pending => absurd pending (by decide)
  | markInProgress =>
    simp only [step, at_] at run
    cases Option.some.inj run
    exact ok.pass running .unlink _ (by decide) (at_ ▸ rfl) fun pending => absurd pending (by decide)
  | unlink =>
    simp only [step, at_] at run
    cases Option.some.inj run
    exact ok.pass running .deleteRoutine s.flags (by decide) (at_ ▸ rfl) fun pending => absurd pending (by decide)
  | deleteRoutine =>
    simp only [step, at_] at run
    cases Option.some.inj run
    exact ok.pass running .freeName s.flags (by decide) (at_ ▸ rfl) fun pending => absurd pending (by decide)
  | freeName =>
    simp only [step, at_] at run
    cases Option.some.inj run
    exact ok.pass running .freeHeader s.flags (by decide) (at_ ▸ rfl) fun pending => absurd pending (by decide)
  | freeHeader =>
    simp only [step, at_] at run
    cases Option.some.inj run
    have entered := ok.entered
    rw [at_] at entered
    exact ok.advance running .finished rfl rfl rfl (by decide) (fun pending => absurd pending (by decide)) entered
      ⟨fun _ => rfl, fun _ => rfl⟩ rfl

theorem step_same {s v : State} (run : step checked s t = some v) :
    v.handleCount = s.handleCount ∧ (v.flags = s.flags ∨ v.flags = s.flags ||| objDeleteInProgress) := by
  unfold step State.enter at run
  split at run
  all_goals first
    | contradiction
    | cases Option.some.inj run
  · split <;> exact ⟨rfl, .inl rfl⟩
  · exact ⟨rfl, .inl rfl⟩
  · split
    · split <;> exact ⟨rfl, .inl rfl⟩
    · exact ⟨rfl, .inl rfl⟩
  · split
    · split <;> exact ⟨rfl, .inl rfl⟩
    · exact ⟨rfl, .inl rfl⟩
  · split <;> exact ⟨rfl, .inl rfl⟩
  · exact ⟨rfl, .inl rfl⟩
  · exact ⟨rfl, .inr rfl⟩
  all_goals exact ⟨rfl, .inl rfl⟩

theorem Phase.nextStep (ok : Phase n s) (guard : Undisturbed n s t) (run : step checked s t = some v) : Phase n v := by
  obtain ⟨noHandles, deletable, phase⟩ := ok
  obtain ⟨handles, flags⟩ := step_same run
  refine ⟨handles.trans noHandles, ?_, ?_⟩
  · rcases flags with same | marked
    · exact same ▸ deletable
    · exact marked ▸ deletable_inProgress deletable
  · rcases phase with counting | ⟨u, deleting⟩
    · rcases counting.early t with holds | reads | done
      · rcases counting.decrementStep guard holds run with counting | deleting
        · exact .inl counting
        · exact .inr ⟨t, deleting⟩
      · exact .inl (counting.readCountStep reads run)
      · simp only [step, done] at run
        contradiction
    · exact .inr ⟨u, deleting.nextStep noHandles deletable run⟩

end steps

theorem start_phase {n : Nat} (threads : 0 < n) (bound : n < 2 ^ 32) {flags : BitVec 32} (deletable : Deletable flags) :
    Phase n (start n flags) := by
  have all : (start n flags).holding n = Finset.range n := by
    refine Finset.filter_true_of_mem fun t member => ?_
    exact if_pos (Finset.mem_range.mp member)
  have card : ((start n flags).holding n).card = n := by rw [all, Finset.card_range]
  refine ⟨rfl, deletable, .inl ⟨?_, card.symm ▸ threads, fun t => ?_, fun t outside => ?_, rfl, rfl, rfl⟩⟩
  · rw [card]
    exact Nat.mod_eq_of_lt bound
  · rcases Decidable.em (t < n) with inside | outside
    · exact .inl (if_pos inside)
    · exact .inr (.inr (if_neg outside))
  · exact if_neg (by omega)

/-- With any number of threads, in every interleaving in which no thread is caught between its decrement and its
second read by the decrement that reaches zero: nobody touches the header after it is freed, only the thread
whose decrement reached zero deletes, and once all threads are through, it has done so exactly once. -/
theorem deleted_exactly_once (checked : Bool) {n : Nat} (threads : 0 < n) (bound : n < 2 ^ 32) {flags : BitVec 32}
    (deletable : Deletable flags) {s : State} {ts : List Nat}
    (run : Run (Guarded (Undisturbed n) fun s t v => step checked s t = some v) (start n flags) ts s) :
    s.readFreed = false ∧ (s.entered = [] ∨ ∃ t, s.reachedZero = some t ∧ s.entered = [t]) ∧
    ((∀ t < n, s.pc t = .finished) → ∃ t < n, s.reachedZero = some t ∧ s.entered = [t] ∧ s.freed = true) := by
  have ok : Phase n s :=
    run.invariant (I := Phase n) (fun ok guarded => ok.nextStep guarded.1 guarded.2) (start_phase threads bound deletable)
  rcases ok.2.2 with counting | ⟨t, deleting⟩
  · refine ⟨counting.unread, .inl counting.unentered, fun done => ?_⟩
    obtain ⟨t, member⟩ := Finset.card_pos.mp counting.positive
    obtain ⟨inside, holds⟩ := Finset.mem_filter.mp member
    rw [done t (Finset.mem_range.mp inside)] at holds
    contradiction
  · have entered := deleting.entered
    refine ⟨deleting.unread, ?_, fun done =>
      ⟨t, deleting.inside, deleting.reached, ?_, deleting.freed.mpr (done t deleting.inside)⟩⟩
    · split at entered
      · exact .inl entered
      · exact .inr ⟨t, deleting.reached, entered⟩
    · rw [entered, done t deleting.inside]
      rfl

/-- Three threads, the last of which deletes. -/
theorem oneByOne_deleted : ∃ s : State, (∀ t < 3, s.pc t = .finished) ∧
    ∃ t < 3, s.reachedZero = some t ∧ s.entered = [t] ∧ s.freed = true := by
  have finishes : (exec (guarded (Undisturbed 3) (step true)) (start 3 0)
      [1, 1, 0, 0, 2, 2, 2, 2, 2, 2, 2, 2, 2, 2]).map (fun s => (s.pc 0, s.pc 1, s.pc 2)) =
      some (.finished, .finished, .finished) := by decide
  obtain ⟨s, run, ends⟩ := Option.map_eq_some_iff.mp finishes
  simp only [Prod.mk.injEq] at ends
  have done : ∀ t < 3, s.pc t = .finished := by
    intro t inside
    match t with
    | 0 => exact ends.1
    | 1 => exact ends.2.1
    | 2 => exact ends.2.2
  exact ⟨s, done, (deleted_exactly_once true (by decide) (by decide) (.inl (by decide)) (guarded_run run)).2.2 done⟩

/-- Both threads drop their reference before either reads the count again. -/
theorem crossing_deletes_twice : Deletable 0 ∧ ∀ checked : Bool, ∃ s : State, ∃ ts : List Nat,
    Run (fun s t v => step checked s t = some v) (start 2 0) ts s ∧
    s.reachedZero = some 1 ∧ s.entered = [1, 0] := by
  refine ⟨.inl (by decide), ?_⟩
  intro checked
  cases checked with
  | false =>
    have finishes : (exec (step false) (start 2 0) [0, 1, 0, 0, 1, 1]).map
        (fun s => (s.reachedZero, s.entered)) = some (some 1, [1, 0]) := by decide
    obtain ⟨s, run, ends⟩ := Option.map_eq_some_iff.mp finishes
    exact ⟨s, _, exec_run.mp run, (Prod.mk.inj ends).1, (Prod.mk.inj ends).2⟩
  | true =>
    have finishes : (exec (step true) (start 2 0) [0, 1, 0, 0, 0, 1, 1, 1]).map
        (fun s => (s.reachedZero, s.entered)) = some (some 1, [1, 0]) := by decide
    obtain ⟨s, run, ends⟩ := Option.map_eq_some_iff.mp finishes
    exact ⟨s, _, exec_run.mp run, (Prod.mk.inj ends).1, (Prod.mk.inj ends).2⟩

end Gr8os.Ob.Race
