import Gr8os.Lib.Run
import Mathlib.Data.BitVec

/-! Spin locks, one instruction after another, on a processor that takes interrupts. The routines are those of
ke386.asm, and an instruction changes what the routines use: the registers EAX and EDX, two flags, the stack and the
lock that ECX points to. -/
namespace Gr8os.Ke.SpinLocks

structure Lock where
  count : BitVec 8
  oldIrqState : BitVec 8
deriving DecidableEq, Repr

structure Flags where
  interruptFlag : Bool
  zeroFlag : Bool
deriving DecidableEq, Repr

/-- What pushfd pushes. Bit 1 is always set. -/
def Flags.image (f : Flags) : BitVec 32 :=
  (if f.interruptFlag then 0x200#32 else 0#32) ||| (if f.zeroFlag then 0x40#32 else 0#32) ||| 2#32

def Flags.ofImage (w : BitVec 32) : Flags := ⟨w.getLsbD 9, w.getLsbD 6⟩

/-- AL of EAX, DL of EDX. -/
def low (w : BitVec 32) : BitVec 8 := w.setWidth 8

def setLow (w : BitVec 32) (b : BitVec 8) : BitVec 32 := (w &&& 0xFFFFFF00#32) ||| b.setWidth 32

inductive Reg
  | eax
  | edx
deriving DecidableEq, Repr

/-- The instructions of the routines. The jumps name the instruction that they go to. -/
inductive Instr
  | xorSelf (r : Reg)
  | incDl
  /-- lock cmpxchg byte [ecx], dl -/
  | cmpxchgCount
  | jnz (target : Nat)
  | jmp (target : Nat)
  | pushfd
  | popEax
  | shrEax (n : Nat)
  | andEax (w : BitVec 32)
  /-- mov byte [ecx+1], al -/
  | storeOldIrqState
  /-- mov byte [ecx], 0 -/
  | clearCount
  /-- mov al, byte [ecx+1] -/
  | loadOldIrqState
  | shlEax (n : Nat)
  /-- or [esp], eax -/
  | orStack
  | popfd
  /-- mov al, [esp+4] -/
  | loadArgument
  | testAl
  | cli
  | sti
  | retn
deriving DecidableEq, Repr

def keAcquireLock : List Instr :=
  [.xorSelf .edx, .incDl,
   -- The loop is from here to the jump.
   .xorSelf .eax, .cmpxchgCount, .jnz 2,
   .pushfd, .popEax, .shrEax 9, .andEax 1, .storeOldIrqState,
   .cli,
   .retn]

def keReleaseLock : List Instr :=
  [.pushfd, .clearCount, .xorSelf .eax, .loadOldIrqState, .shlEax 9, .orStack, .popfd, .retn]

def keReleaseIrqState : List Instr :=
  [.loadArgument, .testAl, .jnz 5, .cli, .jmp 6, .sti, .retn]

/-- KeReleaseIrqState is given what the call of KeAcquireLock for a lock returned. -/
inductive Call
  | keAcquireLock (lock : Nat)
  | keReleaseLock (lock : Nat)
  | keReleaseIrqState (lock : Nat)
deriving DecidableEq, Repr

def Call.routine : Call → List Instr
  | .keAcquireLock _ => SpinLocks.keAcquireLock
  | .keReleaseLock _ => SpinLocks.keReleaseLock
  | .keReleaseIrqState _ => SpinLocks.keReleaseIrqState

def Call.lock : Call → Nat
  | .keAcquireLock l | .keReleaseLock l | .keReleaseIrqState l => l

structure Context where
  /-- The calls still to be made. The first is the one under way. -/
  calls : List Call
  /-- The instruction of that call that comes next. -/
  eip : Nat
  eax : BitVec 32
  edx : BitVec 32
  /-- What the routines pushed, without the return addresses. -/
  stack : List (BitVec 32)
  /-- What KeAcquireLock returned for each lock. -/
  oldIrqState : Nat → BitVec 8

structure Processor where
  flags : Flags
  lock : Nat → Lock
  running : Context
  /-- The contexts whose interrupts are being handled, the last one first, with the flags that iret restores. -/
  interrupted : List (Context × Flags)

namespace Processor

variable (p : Processor)

@[simp] def setLock (l : Nat) (v : Lock) : Processor := { p with lock := fun k => if k = l then v else p.lock k }

@[simp] def setZero (b : Bool) : Processor := { p with flags := { p.flags with zeroFlag := b } }

@[simp] def setInterrupt (b : Bool) : Processor := { p with flags := { p.flags with interruptFlag := b } }

@[simp] def setEax (w : BitVec 32) : Processor := { p with running := { p.running with eax := w } }

@[simp] def setEdx (w : BitVec 32) : Processor := { p with running := { p.running with edx := w } }

@[simp] def setStack (ws : List (BitVec 32)) : Processor := { p with running := { p.running with stack := ws } }

@[simp] def goto (target : Nat) : Processor := { p with running := { p.running with eip := target } }

@[simp] def next : Processor := p.goto (p.running.eip + 1)

/-- The word on top of the stack. -/
@[simp] def top : BitVec 32 := p.running.stack.headD 0

@[simp] def pop : Processor := p.setStack p.running.stack.tail

/-- A return. The caller of KeAcquireLock keeps its result. -/
@[simp] def return_ : Processor :=
  { p with
    running := { p.running with
      calls := p.running.calls.tail
      eip := 0
      oldIrqState := match p.running.calls with
        | .keAcquireLock l :: _ => fun k => if k = l then low p.running.eax else p.running.oldIrqState k
        | _ => p.running.oldIrqState } }

end Processor

/-- One instruction of a call that is given the lock l. -/
def Instr.exec (l : Nat) (p : Processor) : Instr → Processor
  | .xorSelf .eax => ((p.setEax 0).setZero true).next
  | .xorSelf .edx => ((p.setEdx 0).setZero true).next
  | .incDl => ((p.setEdx (setLow p.running.edx (low p.running.edx + 1))).setZero (low p.running.edx + 1 == 0)).next
  | .cmpxchgCount =>
    if (p.lock l).count = low p.running.eax then
      ((p.setLock l { p.lock l with count := low p.running.edx }).setZero true).next
    else ((p.setEax (setLow p.running.eax (p.lock l).count)).setZero false).next
  | .jnz target => if p.flags.zeroFlag then p.next else p.goto target
  | .jmp target => p.goto target
  | .pushfd => (p.setStack (p.flags.image :: p.running.stack)).next
  | .popEax => (p.pop.setEax p.top).next
  | .shrEax n => ((p.setEax (p.running.eax >>> n)).setZero (p.running.eax >>> n == 0)).next
  | .andEax w => ((p.setEax (p.running.eax &&& w)).setZero (p.running.eax &&& w == 0)).next
  | .storeOldIrqState => (p.setLock l { p.lock l with oldIrqState := low p.running.eax }).next
  | .clearCount => (p.setLock l { p.lock l with count := 0 }).next
  | .loadOldIrqState => (p.setEax (setLow p.running.eax (p.lock l).oldIrqState)).next
  | .shlEax n => ((p.setEax (p.running.eax <<< n)).setZero (p.running.eax <<< n == 0)).next
  | .orStack =>
    ((p.setStack ((p.top ||| p.running.eax) :: p.running.stack.tail)).setZero (p.top ||| p.running.eax == 0)).next
  | .popfd => { p.pop with flags := .ofImage p.top }.next
  | .loadArgument => (p.setEax (setLow p.running.eax (p.running.oldIrqState l))).next
  | .testAl => (p.setZero (low p.running.eax == 0)).next
  | .cli => (p.setInterrupt false).next
  | .sti => (p.setInterrupt true).next
  | .retn => p.return_

namespace Processor

/-- The next instruction of the context that is running. -/
def execute (p : Processor) : Processor :=
  match p.running.calls with
  | [] => p
  | call :: _ =>
    match call.routine[p.running.eip]? with
    | some i => i.exec call.lock p
    | none => p

/-- The processor goes through an interrupt gate to a handler that makes these calls. -/
def interrupt (p : Processor) (handler : List Call) : Processor :=
  { p.setInterrupt false with
    running := { p.running with calls := handler, eip := 0 }
    interrupted := (p.running, p.flags) :: p.interrupted }

end Processor

/-- Calls are properly nested when the locks held are taken, the last one first. A lock is taken when it is not held,
and released when it is the last one taken, and only then is the flag given back a second time. -/
def nested : Option Nat → List Nat → List Call → Bool
  | _, held, [] => held.isEmpty
  | _, held, .keAcquireLock l :: calls => decide (l ∉ held) && nested none (l :: held) calls
  | _, held, .keReleaseLock l :: calls => held.head? == some l && nested (some l) held.tail calls
  | released, held, .keReleaseIrqState l :: calls => released == some l && nested none held calls

/-- Calls that come in properly nested pairs. -/
def Paired (calls : List Call) : Prop := nested none [] calls = true

instance (calls : List Call) : Decidable (Paired calls) := inferInstanceAs (Decidable (_ = _))

inductive Event
  | execute
  | interrupt (handler : List Call)
  | iret
deriving DecidableEq, Repr

/-- What the processor does next. An interrupt comes at any instruction before which interrupts are enabled. -/
inductive Step : Processor → Event → Processor → Prop
  | execute {p : Processor} : p.running.calls ≠ [] → Step p .execute p.execute
  | interrupt {p : Processor} {handler : List Call} : p.flags.interruptFlag = true → Paired handler →
    Step p (.interrupt handler) (p.interrupt handler)
  | iret {p : Processor} {c : Context} {f : Flags} {rest : List (Context × Flags)} : p.running.calls = [] →
    p.interrupted = (c, f) :: rest →
    Step p .iret { p with flags := f, running := c, interrupted := rest }

end Gr8os.Ke.SpinLocks
