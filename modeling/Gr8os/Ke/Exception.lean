import Mathlib.Data.BitVec
import Mathlib.Logic.Function.Basic

/-! Structured exceptions: the frames of a thread, their scopes, and the dispatcher.
Loops run as long as there is fuel. A filter and a `__finally` block return and leave the frames as they are. -/
namespace Gr8os.Ke.Exceptions

def trylevelNone : BitVec 32 := 0xFFFFFFFF

def ehNoncontinuable : BitVec 32 := 1
def ehUnwinding : BitVec 32 := 2
def ehExitUnwind : BitVec 32 := 4
def ehContinuing : BitVec 32 := 32

/-! Filters answer with a word and handlers with a byte. -/

def exceptionContinueExecution {w : Nat} : BitVec w := 0#w
def exceptionExecuteHandler {w : Nat} : BitVec w := 1#w
def exceptionContinueSearch {w : Nat} : BitVec w := 2#w
def exceptionCollidedUnwind {w : Nat} : BitVec w := 4#w

def exceptionInvalidResolution : BitVec 32 := 0xC00000FF
def statusInvalidDisposition : BitVec 32 := 0xC0000026
def statusUnwind : BitVec 32 := 0xC0000027
def statusInvalidUnwindTarget : BitVec 32 := 0xC0000029

structure ExceptionArguments where
  exceptionCode : BitVec 32
  flags : BitVec 32
deriving DecidableEq, Repr

/-- A scope without a filter has a `__finally` block, another one an `__except` block. -/
structure ScopeEntry where
  previousTryLevel : BitVec 32
  filter : Option (ExceptionArguments → BitVec 32)

/-- Twelve bytes an entry, and all of them in the address space. -/
structure ScopeTable where
  entries : List ScopeEntry
  fits : 12 * entries.length < 4294967296

def ScopeTable.entry (table : ScopeTable) (level : BitVec 32) : Option ScopeEntry := table.entries[level.toNat]?

/-- A handler of another compiler answers, and it may store a frame for a collided unwind. -/
inductive ExceptionHandler
  | exceptHandler3
  | other (answer : ExceptionArguments → BitVec 8 × Option (BitVec 32))

structure ExceptionFrame where
  next : BitVec 32
  handler : ExceptionHandler
  scopeTable : ScopeTable
  trylevel : BitVec 32

/-- What is called while an exception is handled. -/
inductive Event
  | handler (frame flags : BitVec 32)
  | finallyBlock (frame level trylevel : BitVec 32)
deriving DecidableEq, Repr

structure Pcb where
  exceptionList : BitVec 32
  currentException : Option ExceptionArguments
  frames : BitVec 32 → ExceptionFrame
  trace : List Event

namespace Pcb

variable (s : Pcb)

def setTrylevel (frame level : BitVec 32) : Pcb :=
  { s with frames := Function.update s.frames frame { s.frames frame with trylevel := level } }

def call (e : Event) : Pcb := { s with trace := s.trace ++ [e] }

/-- The level of a scope is left, and its `__finally` block runs. -/
def leave (frame level : BitVec 32) (entry : ScopeEntry) : Pcb :=
  let s := s.setTrylevel frame entry.previousTryLevel
  if entry.filter.isNone then s.call (.finallyBlock frame level (s.frames frame).trylevel) else s

end Pcb

/-- The levels are compared as signed numbers. An entry past the end of the table is a fault. -/
def localUnwind2 (registrationFrame tryLevelPassed : BitVec 32) : Nat → Pcb → Option Pcb
  | 0, _ => none
  | fuel + 1, s =>
    let trylevel := (s.frames registrationFrame).trylevel
    if trylevel = trylevelNone then some s
    else if trylevel.sle tryLevelPassed then some s
    else
      ((s.frames registrationFrame).scopeTable.entry trylevel).bind fun entry =>
        localUnwind2 registrationFrame tryLevelPassed fuel (s.leave registrationFrame trylevel entry)

/-- A handler that is called while frames are unwound: its answer, and what it stores. -/
def callUnwinding (fuel : Nat) (s : Pcb) (args : ExceptionArguments) (frame : BitVec 32) :
    Option (BitVec 8 × Option (BitVec 32) × Pcb) :=
  let s := s.call (.handler frame args.flags)
  match (s.frames frame).handler with
  | .exceptHandler3 => (localUnwind2 frame trylevelNone fuel s).map fun s => (exceptionContinueSearch, none, s)
  | .other answer => some ((answer args).1, (answer args).2, s)

/-- An exception that is raised here does not come back. -/
inductive Unwind
  | returns (s : Pcb)
  | raises (exceptionCode : BitVec 32) (s : Pcb)

def unwindFrames (registrationFrame : BitVec 32) (args : ExceptionArguments) :
    Nat → Pcb → BitVec 32 → BitVec 32 → Option Unwind
  | 0, _, _, _ => none
  | fuel + 1, s, frame, newFrame =>
    if frame = 0 then some (.returns s)
    else if frame = registrationFrame then some (.returns s)
    else if registrationFrame ≠ 0 ∧ registrationFrame ≤ frame then some (.raises statusInvalidUnwindTarget s)
    else
      (callUnwinding fuel s args frame).bind fun called =>
        let newFrame := called.2.1.getD newFrame
        if called.1 = exceptionContinueSearch then
          unwindFrames registrationFrame args fuel { called.2.2 with exceptionList := frame }
            (called.2.2.frames frame).next newFrame
        else if called.1 = exceptionCollidedUnwind then
          unwindFrames registrationFrame args fuel { called.2.2 with exceptionList := newFrame }
            (called.2.2.frames newFrame).next newFrame
        else some (.raises statusInvalidDisposition called.2.2)

/-- The flags with which the frames are called. -/
def unwindArguments (registrationFrame : BitVec 32) (args : Option ExceptionArguments) : ExceptionArguments :=
  let args := args.getD { exceptionCode := statusUnwind, flags := 0 }
  { args with flags := args.flags ||| ehUnwinding ||| (if registrationFrame = 0 then ehExitUnwind else 0) }

def rtlUnwind (fuel : Nat) (s : Pcb) (registrationFrame : BitVec 32) (args : Option ExceptionArguments) :
    Option Unwind :=
  unwindFrames registrationFrame (unwindArguments registrationFrame args) fuel s s.exceptionList 0

def globalUnwind2 (fuel : Nat) (s : Pcb) (registrationFrame : BitVec 32) : Option Unwind :=
  rtlUnwind fuel s registrationFrame none

/-- The innermost scope whose filter does not go on with the search, and its answer. -/
def searchScopes (table : ScopeTable) (args : ExceptionArguments) :
    Nat → BitVec 32 → Option (Option (BitVec 32 × BitVec 32))
  | 0, _ => none
  | fuel + 1, trylevel =>
    if trylevel = trylevelNone then some none
    else
      (table.entry trylevel).bind fun entry =>
        match entry.filter with
        | none => searchScopes table args fuel entry.previousTryLevel
        | some filter =>
          if filter args = exceptionContinueSearch then searchScopes table args fuel entry.previousTryLevel
          else some (some (trylevel, filter args))

/-- How a handler ends. From an `__except` block it does not come back. -/
inductive Handling
  | returns (value : BitVec 8) (s : Pcb)
  | executes (frame trylevel : BitVec 32) (s : Pcb)
  | raises (exceptionCode : BitVec 32) (s : Pcb)

def executeHandler (fuel : Nat) (s : Pcb) (establisherFrame trylevel : BitVec 32) : Option Handling :=
  (globalUnwind2 fuel s establisherFrame).bind fun
    | .raises code s => some (.raises code s)
    | .returns s =>
      (localUnwind2 establisherFrame trylevel fuel s).bind fun s =>
        -- The pointer to the table is that of its first entry.
        ((s.frames establisherFrame).scopeTable.entries.head?).map fun scopetable =>
          .executes establisherFrame trylevel (s.setTrylevel establisherFrame scopetable.previousTryLevel)

def exceptHandler3 (fuel : Nat) (s : Pcb) (args : ExceptionArguments) (establisherFrame : BitVec 32) :
    Option Handling :=
  if args.flags &&& (ehUnwinding ||| ehExitUnwind) ≠ 0 then
    (localUnwind2 establisherFrame trylevelNone fuel s).map (.returns exceptionContinueSearch)
  else
    let frame := s.frames establisherFrame
    (searchScopes frame.scopeTable args fuel frame.trylevel).bind fun
      | none => some (.returns exceptionContinueSearch s)
      | some (trylevel, disposition) =>
        if disposition = exceptionContinueExecution then some (.returns exceptionContinueExecution s)
        else executeHandler fuel s establisherFrame trylevel

def callHandler (fuel : Nat) (s : Pcb) (args : ExceptionArguments) (record : BitVec 32) : Option Handling :=
  let s := s.call (.handler record args.flags)
  match (s.frames record).handler with
  | .exceptHandler3 => exceptHandler3 fuel s args record
  | .other answer => some (.returns (answer args).1 s)

/-- The dispatcher returns to the place of the exception, or an `__except` block is begun, or the thread ends. -/
inductive Dispatch
  | continues (args : ExceptionArguments) (s : Pcb)
  | executes (frame trylevel : BitVec 32) (s : Pcb)
  | exits (exceptionCode : BitVec 32) (s : Pcb)

/-- An exception that is raised while another one is current ends the thread. -/
def nestedException (exceptionCode : BitVec 32) (s : Pcb) : Dispatch :=
  .exits exceptionCode { s with currentException := none }

def continueExecution (fuel : Nat) (s : Pcb) (args : ExceptionArguments) : Option Dispatch :=
  let unwound := unwindArguments s.exceptionList (some args)
  if args.flags &&& ehNoncontinuable ≠ 0 then some (nestedException exceptionInvalidResolution s)
  else
    (rtlUnwind fuel s s.exceptionList (some args)).map fun
      | .raises code s => nestedException code s
      | .returns s =>
        .continues { unwound with flags := unwound.flags ||| ehContinuing } { s with currentException := none }

def walkHandlers (args : ExceptionArguments) : Nat → Pcb → BitVec 32 → Option Dispatch
  | 0, _, _ => none
  | fuel + 1, s, record =>
    if record = 0 then some (.exits args.exceptionCode s)
    else
      (callHandler fuel s args record).bind fun
        | .raises code s => some (nestedException code s)
        | .executes frame trylevel s => some (.executes frame trylevel s)
        | .returns value s =>
          if value = exceptionContinueSearch then walkHandlers args fuel s (s.frames record).next
          else if value = exceptionContinueExecution then continueExecution fuel s args
          else some (nestedException exceptionInvalidResolution s)

def keDispatchException (fuel : Nat) (s : Pcb) (args : ExceptionArguments) : Option Dispatch :=
  if s.currentException.isSome then some (nestedException args.exceptionCode s)
  else walkHandlers args fuel { s with currentException := some args } s.exceptionList

/-- Nothing is raised again once the exception is continued. -/
def keRaiseException (fuel : Nat) (s : Pcb) (args : ExceptionArguments) : Option Dispatch :=
  if args.flags &&& ehContinuing ≠ 0 then some (.continues args s) else keDispatchException fuel s args

end Gr8os.Ke.Exceptions
