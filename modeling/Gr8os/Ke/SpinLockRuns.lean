import Gr8os.Ke.SpinLock

/-! Where interrupts come between the instructions of the spin locks, and what becomes of the interrupt flag. -/
namespace Gr8os.Ke.SpinLocks

open Runs

def byte (b : Bool) : BitVec 8 := if b then 1 else 0

/-- The interrupt flag inside the locks held. Without any it is the flag that the context began with. -/
def inside (base : Bool) (held : List Nat) : Bool := held.isEmpty && base

/-- The locks held are taken, and the flag that was found outside each is kept in it and by the caller. -/
def Held (base : Bool) (lock : Nat → Lock) (old : Nat → BitVec 8) : List Nat → Prop
  | [] => True
  | l :: held => lock l = ⟨1, byte (inside base held)⟩ ∧ old l = byte (inside base held) ∧ l ∉ held ∧
    Held base lock old held

/-- KeAcquireLock before it has the lock. -/
def Trying (f : Flags) (c : Context) : Prop :=
  match c.eip with
  | 1 => c.edx = 0
  | 2 => c.edx = 1
  | 3 => c.edx = 1 ∧ c.eax = 0
  | 4 => c.edx = 1 ∧ f.zeroFlag = false
  | _ => False

/-- KeAcquireLock from when it has the lock until it disables interrupts. -/
def Taken (flag : Bool) (v : Lock) (f : Flags) (c : Context) : Prop :=
  match c.eip with
  | 4 => f.zeroFlag = true
  | 5 => True
  | 6 => (c.stack.headD 0).getLsbD 9 = flag
  | 7 => c.eax.getLsbD 9 = flag
  | 8 => c.eax.getLsbD 0 = flag
  | 9 => low c.eax = byte flag
  | 10 => low c.eax = byte flag ∧ v.oldIrqState = byte flag
  | _ => False

/-- KeReleaseLock from when the lock is free until it gives the flag back. -/
def Freed (flag : Bool) (v : Lock) (c : Context) : Prop :=
  match c.eip with
  | 2 => (c.stack.headD 0).getLsbD 9 = false ∧ v.oldIrqState = byte flag
  | 3 => (c.stack.headD 0).getLsbD 9 = false ∧ v.oldIrqState = byte flag ∧ c.eax = 0
  | 4 => (c.stack.headD 0).getLsbD 9 = false ∧ c.eax = (byte flag).setWidth 32
  | 5 => (c.stack.headD 0).getLsbD 9 = false ∧ c.eax.getLsbD 9 = flag
  | 6 => (c.stack.headD 0).getLsbD 9 = flag
  | _ => False

def GivingBack (flag : Bool) (f : Flags) (c : Context) : Prop :=
  match c.eip with
  | 1 => low c.eax = byte flag
  | 2 => f.zeroFlag = !flag
  | 3 | 4 => flag = false
  | 5 => flag = true
  | 6 => True
  | _ => False

/-- Where a context is, and which locks are its own there. It began with the flag base. -/
inductive Point (base : Bool) (lock : Nat → Lock) (f : Flags) (c : Context) : List Nat → Prop
  | between {held : List Nat} (released : Option Nat) : c.eip = 0 → nested released held c.calls = true →
    Held base lock c.oldIrqState held → f.interruptFlag = inside base held →
    (∀ l, released = some l → c.oldIrqState l = byte (inside base held)) → Point base lock f c held
  | trying {l : Nat} {calls : List Call} {held : List Nat} : c.calls = .keAcquireLock l :: calls →
    l ∉ held → nested none (l :: held) calls = true → Held base lock c.oldIrqState held →
    f.interruptFlag = inside base held → Trying f c → Point base lock f c held
  | taken {l : Nat} {calls : List Call} {held : List Nat} : c.calls = .keAcquireLock l :: calls →
    l ∉ held → nested none (l :: held) calls = true → Held base lock c.oldIrqState held →
    f.interruptFlag = inside base held → (lock l).count = 1 → Taken (inside base held) (lock l) f c →
    Point base lock f c (l :: held)
  | disabled {l : Nat} {calls : List Call} {held : List Nat} : c.calls = .keAcquireLock l :: calls →
    c.eip = 11 → l ∉ held → nested none (l :: held) calls = true → Held base lock c.oldIrqState held →
    f.interruptFlag = false → lock l = ⟨1, byte (inside base held)⟩ → low c.eax = byte (inside base held) →
    Point base lock f c (l :: held)
  | releasing {l : Nat} {calls : List Call} {held : List Nat} : c.calls = .keReleaseLock l :: calls →
    c.eip = 1 → nested (some l) held calls = true → Held base lock c.oldIrqState (l :: held) →
    f.interruptFlag = false → (c.stack.headD 0).getLsbD 9 = false → Point base lock f c (l :: held)
  | freed {l : Nat} {calls : List Call} {held : List Nat} : c.calls = .keReleaseLock l :: calls →
    nested (some l) held calls = true → Held base lock c.oldIrqState held →
    c.oldIrqState l = byte (inside base held) → f.interruptFlag = false → Freed (inside base held) (lock l) c →
    Point base lock f c held
  | restored {l : Nat} {calls : List Call} {held : List Nat} : c.calls = .keReleaseLock l :: calls →
    c.eip = 7 → nested (some l) held calls = true → Held base lock c.oldIrqState held →
    c.oldIrqState l = byte (inside base held) → f.interruptFlag = inside base held → Point base lock f c held
  | givingBack {l : Nat} {calls : List Call} {held : List Nat} : c.calls = .keReleaseIrqState l :: calls →
    nested none held calls = true → Held base lock c.oldIrqState held →
    c.oldIrqState l = byte (inside base held) → f.interruptFlag = inside base held →
    GivingBack (inside base held) f c → Point base lock f c held

/-- After a step the context is at some point again. The locks that others hold are as they were, a lock that has
become its own was free, and one that is no longer its own is free. -/
structure Leads (base : Bool) (p q : Processor) (own own' : List Nat) : Prop where
  point : Point base q.lock q.flags q.running own'
  others : ∀ l, l ∉ own → (p.lock l).count ≠ 0 → q.lock l = p.lock l
  fresh : ∀ l ∈ own', l ∈ own ∨ (p.lock l).count = 0
  taken : ∀ l, (q.lock l).count ≠ 0 → l ∈ own' ∨ l ∉ own ∧ (p.lock l).count ≠ 0

def Advances (base : Bool) (p q : Processor) (own : List Nat) : Prop := ∃ own', Leads base p q own own'

section words

variable {f : Flags} {w v : BitVec 32} {b : Bool}

@[simp] theorem image_interruptFlag : f.image[9] = f.interruptFlag := by
  obtain ⟨i, z⟩ := f
  cases i <;> cases z <;> rfl

theorem low_and_one (bit : w.getLsbD 0 = b) : low (w &&& 1) = byte b := by
  have whole : w &&& 1#32 = BitVec.setWidth 32 (BitVec.ofBool b) := by
    rw [← bit]
    exact BitVec.and_one_eq_setWidth_ofBool_getLsbD
  rw [low, show (1 : BitVec 32) = 1#32 from rfl, whole]
  cases b <;> rfl

theorem setLow_zero (b : BitVec 8) : setLow 0 b = b.setWidth 32 := by
  simp [setLow]

theorem low_setLow (w : BitVec 32) (b : BitVec 8) : low (setLow w b) = b := by
  ext i h
  simp [low, setLow]

theorem byte_shift : ((byte b).setWidth 32 <<< 9).getLsbD 9 = b := by
  cases b <;> rfl

theorem byte_eq_zero : (byte b == 0) = !b := by
  cases b <;> rfl

end words

section points

variable {base : Bool} {p q : Processor} {own held : List Nat} {l : Nat} {call : Call} {calls : List Call} {i : Instr}

theorem execute_eq (here : p.running.calls = call :: calls) (next : call.routine[p.running.eip]? = some i) :
    p.execute = i.exec call.lock p := by
  simp only [Processor.execute, here, next]

theorem executes (here : p.running.calls = call :: calls) (next : call.routine[p.running.eip]? = some i) :
    Step p .execute (i.exec call.lock p) := by
  rw [← execute_eq here next]
  exact .execute (by simp [here])

theorem Held.congr {lock lock' : Nat → Lock} {old old' : Nat → BitVec 8} (holds : Held base lock old held)
    (locks : ∀ k ∈ held, lock' k = lock k) (kept : ∀ k ∈ held, old' k = old k) : Held base lock' old' held := by
  induction held with
  | nil => trivial
  | cons k held ih =>
    obtain ⟨taken, saved, fresh, rest⟩ := holds
    refine ⟨?_, ?_, fresh, ih rest ?_ ?_⟩
    · rw [locks k List.mem_cons_self, taken]
    · rw [kept k List.mem_cons_self, saved]
    · intro j hj
      exact locks j (List.mem_cons_of_mem k hj)
    · intro j hj
      exact kept j (List.mem_cons_of_mem k hj)

theorem Held.count {lock : Nat → Lock} {old : Nat → BitVec 8} (holds : Held base lock old held) :
    ∀ k ∈ held, (lock k).count = 1 := by
  induction held with
  | nil => simp
  | cons j held ih =>
    obtain ⟨taken, -, -, rest⟩ := holds
    intro k hk
    rcases List.mem_cons.mp hk with rfl | hk
    · rw [taken]
    · exact ih rest k hk

theorem Advances.unlocked (same : q.lock = p.lock) (there : Point base p.lock q.flags q.running own) :
    Advances base p q own := by
  refine ⟨own, ⟨by rwa [same], ?_, ?_, ?_⟩⟩
  · intro k _ _
    rw [same]
  · intro k hk
    exact .inl hk
  · intro k taken
    rw [same] at taken
    by_cases mine : k ∈ own
    · exact .inl mine
    · exact .inr ⟨mine, taken⟩

/-- A step that writes the lock l, its own or a free one. -/
theorem Advances.locked (others : ∀ k, k ≠ l → q.lock k = p.lock k) (free : l ∈ own ∨ (p.lock l).count = 0)
    {own' : List Nat} (there : Point base q.lock q.flags q.running own') (same : ∀ k, k ≠ l → (k ∈ own' ↔ k ∈ own))
    (kept : (q.lock l).count ≠ 0 → l ∈ own') : Advances base p q own := by
  refine ⟨own', ⟨there, ?_, ?_, ?_⟩⟩
  · intro k foreign taken
    refine others k ?_
    rintro rfl
    rcases free with mine | free
    · exact foreign mine
    · exact taken free
  · intro k hk
    by_cases this : k = l
    · rwa [this]
    · exact .inl ((same k this).mp hk)
  · intro k taken
    by_cases this : k = l
    · subst this
      exact .inl (kept taken)
    · rw [others k this] at taken
      by_cases mine : k ∈ own
      · exact .inl ((same k this).mpr mine)
      · exact .inr ⟨mine, taken⟩

theorem Held.setLock {v : Lock} (holds : Held base p.lock p.running.oldIrqState held) (fresh : l ∉ held) :
    Held base (p.setLock l v).lock p.running.oldIrqState held := by
  refine holds.congr ?_ (fun _ _ => rfl)
  intro k hk
  exact if_neg (ne_of_mem_of_not_mem hk fresh)

theorem setLock_other {v : Lock} {k : Nat} (other : k ≠ l) : (p.setLock l v).lock k = p.lock k := if_neg other

theorem setLock_self {v : Lock} : (p.setLock l v).lock l = v := if_pos rfl

theorem trying_advances (here : p.running.calls = .keAcquireLock l :: calls) (fresh : l ∉ held)
    (rest : nested none (l :: held) calls = true) (holds : Held base p.lock p.running.oldIrqState held)
    (flag : p.flags.interruptFlag = inside base held) (trying : Trying p.flags p.running) :
    Advances base p p.execute held := by
  unfold Trying at trying
  split at trying
  case h_1 at_ =>
    have code : p.execute = Instr.exec l p .incDl := execute_eq here (by rw [at_]; rfl)
    rw [code]
    refine .unlocked rfl (.trying here fresh rest holds flag ?_)
    simp [Trying, Instr.exec, at_, trying]
    decide
  case h_2 at_ =>
    have code : p.execute = Instr.exec l p (.xorSelf .eax) := execute_eq here (by rw [at_]; rfl)
    rw [code]
    refine .unlocked rfl (.trying here fresh rest holds flag ?_)
    simp [Trying, Instr.exec, at_, trying]
  case h_3 at_ =>
    have code : p.execute = Instr.exec l p .cmpxchgCount := execute_eq here (by rw [at_]; rfl)
    rw [code]
    obtain ⟨edx, eax⟩ := trying
    by_cases free : (p.lock l).count = 0
    · have same : (p.lock l).count = low p.running.eax := by
        rw [free, eax]
        rfl
      have next : Instr.exec l p .cmpxchgCount =
          ((p.setLock l { p.lock l with count := low p.running.edx }).setZero true).next := if_pos same
      rw [next]
      refine .locked (fun k other => setLock_other other) (.inr free)
        (.taken here fresh rest (holds.setLock fresh) flag ?_ ?_)
        (by simp_all) (fun _ => List.mem_cons_self)
      · rw [edx]
        exact congrArg Lock.count setLock_self
      · simp [Taken, at_]
    · have other : (p.lock l).count ≠ low p.running.eax := by
        rw [eax]
        exact free
      have next : Instr.exec l p .cmpxchgCount =
          ((p.setEax (setLow p.running.eax (p.lock l).count)).setZero false).next := if_neg other
      rw [next]
      refine .unlocked rfl (.trying here fresh rest holds flag ?_)
      simp [Trying, at_, edx]
  case h_4 at_ =>
    have code : p.execute = Instr.exec l p (.jnz 2) := execute_eq here (by rw [at_]; rfl)
    rw [code]
    refine .unlocked ?_ ?_
    · simp [Instr.exec, trying]
    · simp only [Instr.exec, trying]
      exact .trying here fresh rest holds flag (by simp [Trying, trying])
  case h_5 => exact trying.elim

theorem taken_advances (here : p.running.calls = .keAcquireLock l :: calls) (fresh : l ∉ held)
    (rest : nested none (l :: held) calls = true) (holds : Held base p.lock p.running.oldIrqState held)
    (flag : p.flags.interruptFlag = inside base held) (mine : (p.lock l).count = 1)
    (taken : Taken (inside base held) (p.lock l) p.flags p.running) : Advances base p p.execute (l :: held) := by
  unfold Taken at taken
  split at taken
  case h_1 at_ =>
    have code : p.execute = Instr.exec l p (.jnz 2) := execute_eq here (by rw [at_]; rfl)
    have next : Instr.exec l p (.jnz 2) = p.next := if_pos taken
    rw [code, next]
    refine .unlocked rfl (.taken here fresh rest holds flag mine ?_)
    simp [Taken, at_]
  case h_2 at_ =>
    have code : p.execute = Instr.exec l p .pushfd := execute_eq here (by rw [at_]; rfl)
    rw [code]
    refine .unlocked rfl (.taken here fresh rest holds flag mine ?_)
    simp [Taken, Instr.exec, at_, flag]
  case h_3 at_ =>
    have code : p.execute = Instr.exec l p .popEax := execute_eq here (by rw [at_]; rfl)
    rw [code]
    refine .unlocked rfl (.taken here fresh rest holds flag mine ?_)
    simpa [Taken, Instr.exec, at_] using taken
  case h_4 at_ =>
    have code : p.execute = Instr.exec l p (.shrEax 9) := execute_eq here (by rw [at_]; rfl)
    rw [code]
    refine .unlocked rfl (.taken here fresh rest holds flag mine ?_)
    simpa [Taken, Instr.exec, at_] using taken
  case h_5 at_ =>
    have code : p.execute = Instr.exec l p (.andEax 1) := execute_eq here (by rw [at_]; rfl)
    rw [code]
    refine .unlocked rfl (.taken here fresh rest holds flag mine ?_)
    have bit : low (p.running.eax &&& 1) = byte (inside base held) := low_and_one taken
    simpa [Taken, Instr.exec, at_] using bit
  case h_6 at_ =>
    have code : p.execute = Instr.exec l p .storeOldIrqState := execute_eq here (by rw [at_]; rfl)
    rw [code]
    refine .locked (fun k other => setLock_other other) (.inl List.mem_cons_self)
      (.taken here fresh rest (holds.setLock fresh) flag ?_ ?_) (fun _ _ => .rfl) (fun _ => List.mem_cons_self)
    · simpa [Instr.exec] using mine
    · simp [Taken, Instr.exec, at_, taken]
  case h_7 at_ =>
    have code : p.execute = Instr.exec l p .cli := execute_eq here (by rw [at_]; rfl)
    rw [code]
    obtain ⟨eax, saved⟩ := taken
    refine .unlocked rfl (.disabled here ?_ fresh rest holds rfl ?_ eax)
    · simp [Instr.exec, at_]
    · rw [← mine, ← saved]
  case h_8 => exact taken.elim

theorem returned_calls (here : p.running.calls = call :: calls) : p.return_.running.calls = calls := by
  simp [here]

/-- Only a return from KeAcquireLock gives the caller a result. -/
theorem returned_old (here : p.running.calls = call :: calls) (other : ∀ k, call ≠ .keAcquireLock k) :
    p.return_.running.oldIrqState = p.running.oldIrqState := by
  cases call with
  | keAcquireLock k => exact absurd rfl (other k)
  | _ => simp [here]

theorem disabled_advances (here : p.running.calls = .keAcquireLock l :: calls) (at_ : p.running.eip = 11)
    (fresh : l ∉ held) (rest : nested none (l :: held) calls = true)
    (holds : Held base p.lock p.running.oldIrqState held) (flag : p.flags.interruptFlag = false)
    (mine : p.lock l = ⟨1, byte (inside base held)⟩) (result : low p.running.eax = byte (inside base held)) :
    Advances base p p.execute (l :: held) := by
  have code : p.execute = Instr.exec l p .retn := execute_eq here (by rw [at_]; rfl)
  rw [code, Instr.exec]
  have old : ∀ k, p.return_.running.oldIrqState k = if k = l then low p.running.eax else p.running.oldIrqState k := by
    simp [here]
  refine .unlocked rfl (.between none rfl ?_ ⟨mine, ?_, fresh, ?_⟩ flag ?_)
  · rwa [returned_calls here]
  · rw [old, if_pos rfl, result]
  · refine holds.congr (fun _ _ => rfl) ?_
    intro k hk
    rw [old, if_neg (ne_of_mem_of_not_mem hk fresh)]
  · intro k none
    cases none

theorem freed_advances (here : p.running.calls = .keReleaseLock l :: calls)
    (rest : nested (some l) held calls = true) (holds : Held base p.lock p.running.oldIrqState held)
    (saved : p.running.oldIrqState l = byte (inside base held)) (flag : p.flags.interruptFlag = false)
    (freed : Freed (inside base held) (p.lock l) p.running) : Advances base p p.execute held := by
  unfold Freed at freed
  split at freed
  case h_1 at_ =>
    have code : p.execute = Instr.exec l p (.xorSelf .eax) := execute_eq here (by rw [at_]; rfl)
    rw [code]
    refine .unlocked rfl (.freed here rest holds saved flag ?_)
    simpa [Freed, Instr.exec, at_] using freed
  case h_2 at_ =>
    have code : p.execute = Instr.exec l p .loadOldIrqState := execute_eq here (by rw [at_]; rfl)
    rw [code]
    obtain ⟨image, lock, eax⟩ := freed
    refine .unlocked rfl (.freed here rest holds saved flag ?_)
    have loaded : setLow p.running.eax (p.lock l).oldIrqState = (byte (inside base held)).setWidth 32 := by
      rw [eax, lock, setLow_zero]
    simpa [Freed, Instr.exec, at_, loaded] using image
  case h_3 at_ =>
    have code : p.execute = Instr.exec l p (.shlEax 9) := execute_eq here (by rw [at_]; rfl)
    rw [code]
    obtain ⟨image, eax⟩ := freed
    refine .unlocked rfl (.freed here rest holds saved flag ?_)
    have shifted : (p.running.eax <<< 9).getLsbD 9 = inside base held := by
      rw [eax]
      exact byte_shift
    exact show Freed _ _ _ by
      unfold Freed
      simp only [Instr.exec, Processor.next, Processor.goto, Processor.setZero, Processor.setEax, at_]
      exact ⟨image, shifted⟩
  case h_4 at_ =>
    have code : p.execute = Instr.exec l p .orStack := execute_eq here (by rw [at_]; rfl)
    rw [code]
    obtain ⟨image, eax⟩ := freed
    refine .unlocked rfl (.freed here rest holds saved flag ?_)
    have both : (p.top ||| p.running.eax).getLsbD 9 = inside base held := by
      rw [BitVec.getLsbD_or, Processor.top, image, eax, Bool.false_or]
    simpa [Freed, Instr.exec, at_] using both
  case h_5 at_ =>
    have code : p.execute = Instr.exec l p .popfd := execute_eq here (by rw [at_]; rfl)
    rw [code]
    refine .unlocked rfl (.restored here ?_ rest holds saved ?_)
    · simp [Instr.exec, at_]
    · exact freed
  case h_6 => exact freed.elim

theorem givingBack_advances (here : p.running.calls = .keReleaseIrqState l :: calls)
    (rest : nested none held calls = true) (holds : Held base p.lock p.running.oldIrqState held)
    (saved : p.running.oldIrqState l = byte (inside base held)) (flag : p.flags.interruptFlag = inside base held)
    (giving : GivingBack (inside base held) p.flags p.running) : Advances base p p.execute held := by
  unfold GivingBack at giving
  split at giving
  case h_1 at_ =>
    have code : p.execute = Instr.exec l p .testAl := execute_eq here (by rw [at_]; rfl)
    rw [code]
    refine .unlocked rfl (.givingBack here rest holds saved flag ?_)
    have zero : (low p.running.eax == 0) = !inside base held := by
      rw [giving]
      exact byte_eq_zero
    simpa [GivingBack, Instr.exec, at_] using zero
  case h_2 at_ =>
    have code : p.execute = Instr.exec l p (.jnz 5) := execute_eq here (by rw [at_]; rfl)
    rw [code]
    cases was : inside base held with
    | true =>
      have next : Instr.exec l p (.jnz 5) = p.goto 5 := if_neg (by simp [giving, was])
      rw [next]
      refine .unlocked rfl (.givingBack here rest holds saved flag ?_)
      simp [GivingBack, was]
    | false =>
      have next : Instr.exec l p (.jnz 5) = p.next := if_pos (by simp [giving, was])
      rw [next]
      refine .unlocked rfl (.givingBack here rest holds saved flag ?_)
      simp [GivingBack, at_, was]
  case h_3 at_ =>
    have code : p.execute = Instr.exec l p .cli := execute_eq here (by rw [at_]; rfl)
    rw [code]
    refine .unlocked rfl (.givingBack here rest holds saved giving.symm ?_)
    simp [GivingBack, Instr.exec, at_, giving]
  case h_4 at_ =>
    have code : p.execute = Instr.exec l p (.jmp 6) := execute_eq here (by rw [at_]; rfl)
    rw [code]
    refine .unlocked rfl (.givingBack here rest holds saved flag ?_)
    simp [GivingBack, Instr.exec]
  case h_5 at_ =>
    have code : p.execute = Instr.exec l p .sti := execute_eq here (by rw [at_]; rfl)
    rw [code]
    refine .unlocked rfl (.givingBack here rest holds saved giving.symm ?_)
    simp [GivingBack, Instr.exec, at_]
  case h_6 at_ =>
    have code : p.execute = Instr.exec l p .retn := execute_eq here (by rw [at_]; rfl)
    rw [code, Instr.exec]
    have old := returned_old here (by simp)
    refine .unlocked rfl (.between none rfl ?_ ?_ flag ?_)
    · rwa [returned_calls here]
    · rwa [old]
    · intro k none
      cases none
  case h_7 => exact giving.elim

theorem releasing_advances (here : p.running.calls = .keReleaseLock l :: calls) (at_ : p.running.eip = 1)
    (rest : nested (some l) held calls = true) (holds : Held base p.lock p.running.oldIrqState (l :: held))
    (flag : p.flags.interruptFlag = false) (image : (p.running.stack.headD 0).getLsbD 9 = false) :
    Advances base p p.execute (l :: held) := by
  have code : p.execute = Instr.exec l p .clearCount := execute_eq here (by rw [at_]; rfl)
  rw [code]
  obtain ⟨mine, saved, fresh, others⟩ := holds
  refine .locked (fun k other => setLock_other other) (.inl List.mem_cons_self)
    (.freed here rest (others.setLock fresh) saved flag ?_) (by simp_all) ?_
  · have kept : (Instr.exec l p .clearCount).lock l = ⟨0, byte (inside base held)⟩ := by
      simp [Instr.exec, mine]
    rw [kept]
    simpa [Freed, Instr.exec, at_] using image
  · exact fun taken => absurd (congrArg Lock.count setLock_self) taken

theorem restored_advances (here : p.running.calls = .keReleaseLock l :: calls) (at_ : p.running.eip = 7)
    (rest : nested (some l) held calls = true) (holds : Held base p.lock p.running.oldIrqState held)
    (saved : p.running.oldIrqState l = byte (inside base held)) (flag : p.flags.interruptFlag = inside base held) :
    Advances base p p.execute held := by
  have code : p.execute = Instr.exec l p .retn := execute_eq here (by rw [at_]; rfl)
  have old := returned_old here (by simp)
  rw [code, Instr.exec]
  refine .unlocked rfl (.between (some l) rfl ?_ ?_ flag ?_)
  · rwa [returned_calls here]
  · rwa [old]
  · intro k same
    cases same
    rwa [old]

theorem between_advances {released : Option Nat} (at_ : p.running.eip = 0) (work : p.running.calls ≠ [])
    (order : nested released held p.running.calls = true) (holds : Held base p.lock p.running.oldIrqState held)
    (flag : p.flags.interruptFlag = inside base held)
    (kept : ∀ l, released = some l → p.running.oldIrqState l = byte (inside base held)) :
    Advances base p p.execute held := by
  cases here : p.running.calls with
  | nil => exact absurd here work
  | cons call calls =>
    rw [here] at order
    cases call with
    | keAcquireLock l =>
      simp only [nested, Bool.and_eq_true, decide_eq_true_eq] at order
      have code : p.execute = Instr.exec l p (.xorSelf .edx) := execute_eq here (by rw [at_]; rfl)
      rw [code]
      refine .unlocked rfl (.trying here order.1 order.2 holds flag ?_)
      simp [Trying, Instr.exec, at_]
    | keReleaseLock l =>
      simp only [nested, Bool.and_eq_true, beq_iff_eq] at order
      obtain ⟨last, order⟩ := order
      cases held with
      | nil => cases last
      | cons k held =>
        cases last
        have code : p.execute = Instr.exec l p .pushfd := execute_eq here (by rw [at_]; rfl)
        rw [code]
        refine .unlocked rfl (.releasing here ?_ order holds flag ?_)
        · simp [Instr.exec, at_]
        · simpa [Instr.exec, inside] using flag
    | keReleaseIrqState l =>
      simp only [nested, Bool.and_eq_true, beq_iff_eq] at order
      have code : p.execute = Instr.exec l p .loadArgument := execute_eq here (by rw [at_]; rfl)
      rw [code]
      refine .unlocked rfl (.givingBack here order.2 holds (kept l order.1) flag ?_)
      simp [GivingBack, Instr.exec, at_, low_setLow, kept l order.1]

/-- Every instruction leads from one point to the next. -/
theorem point_advances (here : Point base p.lock p.flags p.running own) (work : p.running.calls ≠ []) :
    Advances base p p.execute own := by
  cases here with
  | between released at_ order holds flag kept => exact between_advances at_ work order holds flag kept
  | trying here fresh rest holds flag trying => exact trying_advances here fresh rest holds flag trying
  | taken here fresh rest holds flag mine taken => exact taken_advances here fresh rest holds flag mine taken
  | disabled here at_ fresh rest holds flag mine result =>
    exact disabled_advances here at_ fresh rest holds flag mine result
  | releasing here at_ rest holds flag image => exact releasing_advances here at_ rest holds flag image
  | freed here rest holds saved flag freed => exact freed_advances here rest holds saved flag freed
  | restored here at_ rest holds saved flag => exact restored_advances here at_ rest holds saved flag
  | givingBack here rest holds saved flag giving => exact givingBack_advances here rest holds saved flag giving

end points

section interrupts

variable {base b : Bool} {lock lock' : Nat → Lock} {f : Flags} {c : Context} {own held : List Nat} {p q : Processor}
  {event : Event}

theorem inside_true (flag : inside base held = true) : held = [] ∧ base = true := by
  simpa [inside] using flag

/-- A context that began with interrupts disabled never enables them. -/
theorem Point.closed (here : Point false lock f c own) : f.interruptFlag = false := by
  cases here <;> simp_all [inside]

/-- What a context counts on while interrupts are enabled are its own locks, and those are taken. -/
theorem Point.own_count (here : Point base lock f c own) (flag : f.interruptFlag = true) :
    ∀ l ∈ own, (lock l).count = 1 := by
  cases here with
  | taken _ _ _ holds _ mine _ =>
    intro k hk
    rcases List.mem_cons.mp hk with rfl | hk
    · exact mine
    · exact holds.count k hk
  | between _ _ _ holds | trying _ _ _ holds | freed _ _ holds | restored _ _ _ holds | givingBack _ _ holds =>
    exact holds.count
  | disabled _ _ _ _ _ off | releasing _ _ _ _ off => exact absurd flag (by simp [off])

theorem Point.congr (here : Point base lock f c own) (flag : f.interruptFlag = true)
    (same : ∀ l ∈ own, lock' l = lock l) : Point base lock' f c own := by
  cases here with
  | between released at_ order holds inside_ kept =>
    exact .between released at_ order (holds.congr same fun _ _ => rfl) inside_ kept
  | trying here fresh rest holds inside_ trying =>
    exact .trying here fresh rest (holds.congr same fun _ _ => rfl) inside_ trying
  | taken here fresh rest holds inside_ mine taken =>
    have unchanged := same _ List.mem_cons_self
    refine .taken here fresh rest (holds.congr ?_ fun _ _ => rfl) inside_ ?_ ?_
    · intro k hk
      exact same k (List.mem_cons_of_mem _ hk)
    · rwa [unchanged]
    · rwa [unchanged]
  | restored here at_ rest holds saved inside_ =>
    exact .restored here at_ rest (holds.congr same fun _ _ => rfl) saved inside_
  | givingBack here rest holds saved inside_ giving =>
    exact .givingBack here rest (holds.congr same fun _ _ => rfl) saved inside_ giving
  | disabled _ _ _ _ _ off | releasing _ _ _ _ off | freed _ _ _ _ off => exact absurd flag (by simp [off])

/-- The first context is at a point, or a handler is, while the first one waits where interrupts are enabled. The two
own no lock together, and every other lock is free. -/
inductive Safe (base : Bool) (p : Processor) : Prop
  | alone (own : List Nat) : p.interrupted = [] → Point base p.lock p.flags p.running own →
    (∀ l, (p.lock l).count ≠ 0 → l ∈ own) → Safe base p
  | handling {c : Context} {f : Flags} (outer own : List Nat) : p.interrupted = [(c, f)] → f.interruptFlag = true →
    Point base p.lock f c outer → Point false p.lock p.flags p.running own → (∀ l ∈ own, l ∉ outer) →
    (∀ l, (p.lock l).count ≠ 0 → l ∈ own ∨ l ∈ outer) → Safe base p

theorem execute_interrupted : p.execute.interrupted = p.interrupted := by
  have exec : ∀ (l : Nat) (i : Instr), (i.exec l p).interrupted = p.interrupted := by
    intro l i
    cases i with
    | xorSelf r => cases r <;> rfl
    | cmpxchgCount | jnz => simp only [Instr.exec]; split <;> rfl
    | _ => rfl
  unfold Processor.execute
  split
  · rfl
  · split
    · exact exec _ _
    · rfl

theorem Point.done (here : Point base lock f c own) (done : c.calls = []) : own = [] := by
  cases here with
  | between released at_ order =>
    rw [done] at order
    simpa [nested] using order
  | trying here | taken here | disabled here | releasing here | freed here | restored here | givingBack here =>
    rw [done] at here
    cases here

theorem Safe.step (safe : Safe base p) (step : Step p event q) : Safe base q := by
  cases step with
  | execute work =>
    cases safe with
    | alone own nobody here all =>
      obtain ⟨own', there⟩ := point_advances here work
      refine .alone own' (execute_interrupted.trans nobody) there.point ?_
      intro l taken
      rcases there.taken l taken with mine | ⟨foreign, was⟩
      · exact mine
      · exact absurd (all l was) foreign
    | @handling c f outer own frame enabled waits here apart all =>
      obtain ⟨own', there⟩ := point_advances here work
      have taken := waits.own_count enabled
      have counted : ∀ l ∈ outer, (p.lock l).count ≠ 0 := by
        intro l hl zero
        rw [taken l hl] at zero
        cases zero
      refine .handling outer own' (execute_interrupted.trans frame) enabled (waits.congr enabled ?_) there.point ?_ ?_
      · intro l hl
        exact there.others l (fun mine => apart l mine hl) (counted l hl)
      · intro l hl outside
        rcases there.fresh l hl with mine | free
        · exact apart l mine outside
        · exact counted l outside free
      · intro l taken
        rcases there.taken l taken with mine | ⟨foreign, was⟩
        · exact .inl mine
        · exact .inr ((all l was).resolve_left foreign)
  | @interrupt handler enabled pairs =>
    cases safe with
    | alone own nobody here all =>
      refine .handling own [] ?_ enabled here (.between none rfl pairs trivial rfl ?_) ?_ ?_
      · simp [Processor.interrupt, nobody]
      · intro l none
        cases none
      · simp
      · intro l taken
        exact .inr (all l taken)
    | handling outer own frame _ _ here => exact absurd enabled (by simp [here.closed])
  | @iret c f rest done frame =>
    cases safe with
    | alone own nobody here =>
      rw [nobody] at frame
      cases frame
    | handling outer own only enabled waits here apart all =>
      rw [only] at frame
      cases frame
      refine .alone outer rfl waits ?_
      intro l taken
      rw [here.done done] at all
      exact (all l taken).resolve_left List.not_mem_nil

end interrupts

section runs

variable {s p q : Processor} {events : List Event} {held : List Nat} {calls : List Call} {released released' : Option Nat}

/-- A processor that is about to make calls in properly nested pairs, with every lock free. -/
structure Starts (s : Processor) : Prop where
  first : s.running.eip = 0
  paired : Paired s.running.calls
  free : ∀ l, (s.lock l).count = 0
  nobody : s.interrupted = []

theorem Starts.safe (start : Starts s) (run : Run Step s events p) : Safe s.flags.interruptFlag p := by
  refine run.invariant (I := Safe s.flags.interruptFlag) Safe.step
    (.alone [] start.nobody (.between none start.first start.paired trivial rfl ?_) ?_)
  · intro l none
    cases none
  · intro l taken
    exact absurd (start.free l) taken

/-- The calls still to be made tell which locks are held. -/
theorem nested_held {held' : List Nat} (order : nested released held calls = true)
    (order' : nested released' held' calls = true) : held = held' := by
  induction calls generalizing released released' held held' with
  | nil => simp_all [nested]
  | cons call calls ih =>
    cases call with
    | keAcquireLock l =>
      simp only [nested, Bool.and_eq_true] at order order'
      have same := ih order.2 order'.2
      cases same
      rfl
    | keReleaseLock l =>
      simp only [nested, Bool.and_eq_true, beq_iff_eq] at order order'
      have same := ih order.2 order'.2
      rw [← List.cons_head?_tail order.1, ← List.cons_head?_tail order'.1, same]
    | keReleaseIrqState l =>
      simp only [nested, Bool.and_eq_true] at order order'
      exact ih order.2 order'.2

theorem Point.atCall {base : Bool} {lock : Nat → Lock} {f : Flags} {c : Context} {own : List Nat}
    (here : Point base lock f c own) (at_ : c.eip = 0) :
    f.interruptFlag = inside base own ∧ ∃ released, nested released own c.calls = true := by
  cases here with
  | between released _ order _ flag => exact ⟨flag, released, order⟩
  | trying _ _ _ _ _ inside_ => exact absurd inside_ (by simp [Trying, at_])
  | taken _ _ _ _ _ _ inside_ => exact absurd inside_ (by simp [Taken, at_])
  | freed _ _ _ _ _ inside_ => exact absurd inside_ (by simp [Freed, at_])
  | givingBack _ _ _ _ _ inside_ => exact absurd inside_ (by simp [GivingBack, at_])
  | disabled _ there | releasing _ there | restored _ there =>
    rw [at_] at there
    cases there

def Excludes (s : Processor) : Prop :=
  ∀ (events : List Event) (p q : Processor) (handler : List Call), Run Step s events p →
    Step p (.interrupt handler) q → ∀ l, (p.lock l).count = 0

/-- Where a context has made its calls in pairs, the interrupt flag is what it was when the context began: what it was
at the start, and clear in a handler. -/
def Restores (s : Processor) : Prop :=
  ∀ (events : List Event) (p : Processor) (released : Option Nat), Run Step s events p → p.running.eip = 0 →
    nested released [] p.running.calls = true →
    p.flags.interruptFlag = (p.interrupted.isEmpty && s.flags.interruptFlag)

theorem Starts.restores (start : Starts s) : Restores s := by
  intro events p released run at_ order
  have flagOf : ∀ {base : Bool} {own : List Nat}, Point base p.lock p.flags p.running own →
      p.flags.interruptFlag = base := by
    intro base own here
    obtain ⟨flag, released', order'⟩ := here.atCall at_
    rw [flag, ← nested_held order order']
    rfl
  cases start.safe run with
  | alone own nobody here => rw [nobody, flagOf here]; rfl
  | handling outer own frame _ _ here => rw [frame, flagOf here]; rfl

/-- A context that has no calls to make is only interrupted. -/
def Idle (p : Processor) : Prop :=
  (p.interrupted = [] → p.running.calls = []) ∧ ∀ x ∈ p.interrupted, x.1.calls = []

theorem idle_step (base : Bool) {event : Event} (kept : Safe base p ∧ Idle p) (step : Step p event q) :
    Safe base q ∧ Idle q := by
  obtain ⟨safe, alone, waiting⟩ := kept
  refine ⟨safe.step step, ?_⟩
  cases step with
  | execute work =>
    rw [Idle, execute_interrupted]
    exact ⟨fun nobody => absurd (alone nobody) work, waiting⟩
  | interrupt enabled pairs =>
    cases safe with
    | alone own nobody => exact ⟨by simp [Processor.interrupt], by simp [Processor.interrupt, nobody, alone nobody]⟩
    | handling outer own frame _ _ here => exact absurd enabled (by simp [here.closed])
  | iret done frame =>
    rw [frame] at waiting
    exact ⟨fun _ => waiting _ List.mem_cons_self, fun x hx => waiting x (List.mem_cons_of_mem _ hx)⟩

/-- With interrupts enabled a context owns a lock only between the instruction of KeAcquireLock that takes it and the one
that disables interrupts. -/
theorem Point.exposed {base : Bool} {lock : Nat → Lock} {f : Flags} {c : Context} {own : List Nat} {l : Nat}
    (here : Point base lock f c own) (enabled : f.interruptFlag = true) (mine : l ∈ own) :
    base = true ∧ (∃ calls, c.calls = .keAcquireLock l :: calls) ∧ Taken true (lock l) f c := by
  cases here with
  | @taken k calls held here _ _ _ flag _ taken =>
    rw [flag] at enabled
    obtain ⟨none, entered⟩ := inside_true enabled
    rw [enabled] at taken
    subst none
    cases List.mem_singleton.mp mine
    exact ⟨entered, ⟨calls, here⟩, taken⟩
  | between _ _ _ _ flag | trying _ _ _ _ flag | restored _ _ _ _ _ flag | givingBack _ _ _ _ flag =>
    rw [flag] at enabled
    rw [(inside_true enabled).1] at mine
    cases mine
  | disabled _ _ _ _ _ off | releasing _ _ _ _ off | freed _ _ _ _ off => exact absurd enabled (by simp [off])

theorem Safe.exposed {base : Bool} {l : Nat} (safe : Safe base p) (enabled : p.flags.interruptFlag = true)
    (taken : (p.lock l).count ≠ 0) :
    base = true ∧ p.interrupted = [] ∧ (∃ calls, p.running.calls = .keAcquireLock l :: calls) ∧
      Taken true (p.lock l) p.flags p.running := by
  cases safe with
  | alone own nobody here all =>
    obtain ⟨entered, call, inside_⟩ := here.exposed enabled (all l taken)
    exact ⟨entered, nobody, call, inside_⟩
  | handling _ _ _ _ _ here => exact absurd enabled (by simp [here.closed])

/-- The first lock is taken by the fourth instruction, and the flag is still what it was. -/
theorem Starts.takes {l : Nat} (start : Starts s) (here : s.running.calls = .keAcquireLock l :: calls) :
    ∃ p, Run Step s [.execute, .execute, .execute, .execute] p ∧ p.flags.interruptFlag = s.flags.interruptFlag ∧
      (p.lock l).count = 1 := by
  let first := Instr.exec l s (.xorSelf .edx)
  let second := Instr.exec l first .incDl
  let third := Instr.exec l second (.xorSelf .eax)
  have edx : low third.running.edx = 1 := by
    show low (setLow 0 (low 0 + 1)) = 1
    rfl
  have free : (third.lock l).count = low third.running.eax := start.free l
  have fourth : Instr.exec l third .cmpxchgCount =
      ((third.setLock l { third.lock l with count := low third.running.edx }).setZero true).next := if_pos free
  have clear : Step s .execute first := by
    refine executes here ?_
    rw [start.first]
    rfl
  have one : Step first .execute second := by
    refine executes (p := first) here ?_
    show keAcquireLock[s.running.eip + 1]? = _
    rw [start.first]
    rfl
  have zero : Step second .execute third := by
    refine executes (p := second) here ?_
    show keAcquireLock[s.running.eip + 1 + 1]? = _
    rw [start.first]
    rfl
  have swap : Step third .execute (Instr.exec l third .cmpxchgCount) := by
    refine executes (p := third) here ?_
    show keAcquireLock[s.running.eip + 1 + 1 + 1]? = _
    rw [start.first]
    rfl
  refine ⟨_, .next clear (.next one (.next zero (.next swap (.done _)))), ?_, ?_⟩
  · rw [fourth]
    rfl
  · rw [fourth, ← edx]
    exact congrArg Lock.count setLock_self

/-- Exactly then are interrupts excluded: the flag is clear already where the first lock is taken, or none is taken. -/
theorem interrupts_excluded_iff (start : Starts s) :
    Excludes s ∧ Restores s ↔ s.flags.interruptFlag = false ∨ s.running.calls = [] := by
  constructor
  · rintro ⟨excludes, -⟩
    cases flag : s.flags.interruptFlag with
    | false => exact .inl rfl
    | true =>
      refine .inr ?_
      cases here : s.running.calls with
      | nil => rfl
      | cons call calls =>
        have order := start.paired
        rw [Paired, here] at order
        cases call with
        | keAcquireLock l =>
          obtain ⟨p, run, same, taken⟩ := start.takes here
          have free := excludes _ p _ [] run (.interrupt (same.trans flag) rfl) l
          rw [taken] at free
          cases free
        | keReleaseLock l | keReleaseIrqState l => simp [nested] at order
  · intro condition
    refine ⟨?_, start.restores⟩
    intro events p q handler run step l
    have enabled : p.flags.interruptFlag = true := by
      cases step
      assumption
    by_contra taken
    obtain ⟨entered, nobody, ⟨calls, call⟩, -⟩ := (start.safe run).exposed enabled taken
    rcases condition with off | none
    · rw [off] at entered
      cases entered
    · have idle : Safe s.flags.interruptFlag s ∧ Idle s :=
        ⟨start.safe (.done s), fun _ => none, by simp [start.nobody]⟩
      have still := (run.invariant (I := fun p => Safe s.flags.interruptFlag p ∧ Idle p) (idle_step _) idle).2.1 nobody
      rw [still] at call
      cases call

end runs

def lockOnce (interruptFlag : Bool) : Processor where
  flags := ⟨interruptFlag, false⟩
  lock _ := ⟨0, 0⟩
  running := ⟨[.keAcquireLock 0, .keReleaseLock 0], 0, 0, 0, [], fun _ => 0⟩
  interrupted := []

theorem lockOnce_starts (b : Bool) : Starts (lockOnce b) := ⟨rfl, rfl, fun _ => rfl, rfl⟩

theorem lockOnce_excluded : Excludes (lockOnce false) ∧ Restores (lockOnce false) :=
  (interrupts_excluded_iff (lockOnce_starts false)).mpr (.inl rfl)

/-- An interrupt comes when the lock byte is set and cli is still to come. -/
theorem lockOnce_exposed : Starts (lockOnce true) ∧ ¬(Excludes (lockOnce true) ∧ Restores (lockOnce true)) := by
  refine ⟨lockOnce_starts true, ?_⟩
  rintro ⟨excludes, -⟩
  obtain ⟨p, run, enabled, taken⟩ := (lockOnce_starts true).takes rfl
  have free := excludes _ p _ [] run (.interrupt enabled rfl) 0
  rw [taken] at free
  cases free

end Gr8os.Ke.SpinLocks
