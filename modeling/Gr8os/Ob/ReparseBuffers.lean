import Gr8os.Lib.Ownership
import Gr8os.Ob.Name

/-! The buffers that parse routines store in ReparsePath, as ObReferenceObjectByName reads and frees them. A buffer is
numbered when it is stored, and becomes the caller's by STATUS_REPARSE. -/
namespace Gr8os.Ob.ReparseBuffers

open Ownership

/-- What a parse routine returns: its status, and what it stores in ReparsePath, if anything: NULL or a new buffer. -/
structure Outcome where
  status : BitVec 32
  reparsePath : Option (Option UnicodeString)
deriving DecidableEq, Repr

/-- An error leaves ReparsePath as it is, and STATUS_REPARSE comes with a new buffer. -/
def Outcome.Obeys (outcome : Outcome) : Prop :=
  (succeeded outcome.status = false → outcome.reparsePath = none) ∧
    (outcome.status = Status.reparse.code → ∃ path, outcome.reparsePath = some (some path))

/-- The heap, the objects and the parse routines, as they are at each heap call of the lookup. A routine is given the
object, the full path, the remaining path and the context. -/
structure Circumstances where
  allocated : Nat → Bool
  space : Nat → ObjectSpace
  parseRoutine : Nat → Nat → List WChar → List WChar → BitVec 32 → Option Outcome

def Circumstances.Obey (c : Circumstances) : Prop :=
  ∀ heapCalls o fullPath remainingPath parseContext outcome,
    c.parseRoutine heapCalls o fullPath remainingPath parseContext = some outcome → outcome.Obeys

/-- What the parse routine of an object's type does, if it has one and is no directory. -/
def Circumstances.parse (c : Circumstances) (parseContext : BitVec 32) (path : UnicodeString) (wc heapCalls o : Nat) :
    Option Outcome :=
  if ((c.space heapCalls).object o).objectType = .directory then none
  else c.parseRoutine heapCalls o path.buffer (path.buffer.drop wc) parseContext

/-- The pointers of the call: ReparsePath.Buffer, and the buffer that ParseBuffer, wc and prevslash point into. The
caller's own string and NULL are none. -/
structure Locals where
  reparsePath : Option Nat := none
  parseBuffer : Option Nat := none
  buffers : Nat := 0
  trace : List (Event Nat) := []

def Locals.read (l : Locals) : Locals := { l with trace := l.trace ++ (l.parseBuffer.map .read).toList }

/-- What is not NULL is freed. -/
def Locals.exFreeHeap (l : Locals) (buffer : Option Nat) : Locals :=
  { l with trace := l.trace ++ (buffer.map .freed).toList }

def Locals.store (l : Locals) : Option (Option UnicodeString) → Locals
  | none => l
  | some none => { l with reparsePath := none }
  | some (some _) => { l with reparsePath := some l.buffers, buffers := l.buffers + 1 }

/-- The path starts over in the new buffer. -/
def Locals.reparse (l : Locals) : Locals :=
  { l with parseBuffer := l.reparsePath, trace := l.trace ++ (l.reparsePath.map .acquired).toList }

/-- How the loop over one path ends; `parsed` tells whether the parse routine of the last object was called. -/
inductive PathEnd
  | returned (status : BitVec 32)
  | parseFailed (status : BitVec 32)
  | finish (o : Nat) (parsed : Bool) (heapCalls : Nat)
  | reparse (path : UnicodeString) (heapCalls : Nat)
  | fuel
deriving DecidableEq, Repr

/-- The call of a parse routine, and what follows it up to the check for the last name. -/
def callParseRoutine (l : Locals) (o heapCalls : Nat) : Option Outcome → Locals × Option PathEnd
  | none => (l, none)
  | some outcome =>
    let reparseBuffer := l.reparsePath
    let l := (l.read.store outcome.reparsePath).exFreeHeap reparseBuffer
    if !succeeded outcome.status then (l.exFreeHeap l.reparsePath, some (.parseFailed outcome.status))
    else if outcome.status = Status.reparse.code then
      (l.reparse, some (.reparse (outcome.reparsePath.join.getD ⟨[], 0⟩) (heapCalls + 2)))
    else
      let l := { l with reparsePath := none }
      if outcome.status = Status.finishParsing.code then
        (l.exFreeHeap l.reparsePath, some (.finish o true heapCalls))
      else (l, none)

/-- Where the loop over a path stands; `prevslash` and `wc` count characters from ParseBuffer. -/
structure Cursor where
  currentDirectory : Nat
  prevslash : Nat
  wc : Nat
  heapCalls : Nat

inductive Turn
  | ends (e : PathEnd)
  | goesOn (next : Cursor)

/-- The body of the loop of ObReferenceObjectByName, for one character. -/
def nameStep (c : Circumstances) (parseContext : BitVec 32) (path : UnicodeString) (p : Cursor) (l : Locals) :
    Locals × Turn :=
  let l := l.read
  if path.buffer[p.wc]? = some backslash ∨ 2 * p.wc ≥ path.length.toNat then
    if !c.allocated p.heapCalls then
      (l.exFreeHeap l.reparsePath, .ends (.returned Status.insufficientResources.code))
    else
      let tempName := wcssubstr (path.buffer.drop (p.prevslash + 1)) 0 ((2 * p.wc - 2 * p.prevslash) / 2 - 1)
      match obpFindObjectInDirectory (c.space p.heapCalls) p.currentDirectory tempName with
      | none => (l.exFreeHeap l.reparsePath, .ends (.returned Status.notFound.code))
      | some o =>
        let outcome := c.parse parseContext path p.wc p.heapCalls o
        match callParseRoutine l o p.heapCalls outcome with
        | (l, some e) => (l, .ends e)
        | (l, none) =>
          if 2 * p.wc ≥ path.length.toNat then
            (l.exFreeHeap l.reparsePath, .ends (.finish o outcome.isSome p.heapCalls))
          else if ((c.space p.heapCalls).object o).objectType ≠ .directory then
            (l.exFreeHeap l.reparsePath, .ends (.returned Status.notFound.code))
          else (l, .goesOn ⟨o, p.wc, p.wc + 1, p.heapCalls + 1⟩)
  else (l, .goesOn { p with wc := p.wc + 1 })

def nameLoop (c : Circumstances) (parseContext : BitVec 32) (path : UnicodeString) :
    Nat → Cursor → Locals → Locals × PathEnd
  | 0, _, l => (l, .fuel)
  | fuel + 1, p, l =>
    match nameStep c parseContext path p l with
    | (l, .ends e) => (l, e)
    | (l, .goesOn p) => nameLoop c parseContext path fuel p l

/-- The cursor after `prevslash = wc++` at the start of a path. -/
def Circumstances.start (c : Circumstances) (heapCalls : Nat) : Cursor :=
  ⟨(c.space heapCalls).obRootObjectDirectory, 0, 1, heapCalls⟩

structure Returned where
  status : BitVec 32
  object : Option Nat
  locals : Locals

/-- What follows the label `finish`. -/
def finishName (s : ObjectSpace) (objectType : Option ObjectType) (requestorMode : ProcessorMode) (o : Nat)
    (l : Locals) : Returned :=
  let l := l.exFreeHeap l.reparsePath
  if requestorMode = .userMode ∧ some (s.object o).objectType ≠ objectType then
    ⟨Status.accessDenied.code, none, l⟩
  else ⟨Status.success.code, some o, l⟩

/-- ObReferenceObjectByName from the label `reparse`; `fuel` bounds the reparses. -/
def reparseName (c : Circumstances) (objectType : Option ObjectType) (requestorMode : ProcessorMode)
    (parseContext : BitVec 32) : Nat → UnicodeString → Nat → Locals → Option Returned
  | 0, _, _, _ => none
  | fuel + 1, path, heapCalls, l =>
    let l := l.read
    if path.buffer[0]? ≠ some backslash then some ⟨Status.notFound.code, none, l.exFreeHeap l.reparsePath⟩
    else
      match nameLoop c parseContext path (path.length.toNat + 1) (c.start heapCalls) l with
      | (l, .returned status) => some ⟨status, none, l⟩
      | (l, .parseFailed status) => some ⟨status, none, l⟩
      | (l, .finish o _ heapCalls) => some (finishName (c.space heapCalls) objectType requestorMode o l)
      | (l, .reparse path heapCalls) => reparseName c objectType requestorMode parseContext fuel path heapCalls l
      | (_, .fuel) => none

def obReferenceObjectByName (c : Circumstances) (fuel : Nat) (objectName : UnicodeString)
    (objectType : Option ObjectType) (requestorMode : ProcessorMode) (parseContext : BitVec 32) : Option Returned :=
  reparseName c objectType requestorMode parseContext fuel objectName 0 {}

/-- The parse routines of the kernel's own types: a symbolic link stores the result of its allocation, also when that
failed. -/
def kernelParseRoutine (h : ObjectHeader) (remainingPath : List WChar) (parseContext : BitVec 32) (allocated : Bool) :
    Option Outcome :=
  match h.body with
  | .symbolicLink target =>
    let parsed := obpParseSymbolicLink target remainingPath parseContext allocated
    some ⟨parsed.status.code, if parseContext ≠ 1 then some parsed.reparsePath else none⟩
  | .device => some ⟨(iopParseDevice remainingPath parseContext).status.code, none⟩
  | _ => none

/-- Objects that stay as they are, with no other parse routines. -/
def kernelCircumstances (allocated : Nat → Bool) (s : ObjectSpace) : Circumstances where
  allocated := allocated
  space _ := s
  parseRoutine heapCalls o _ remainingPath parseContext :=
    kernelParseRoutine (s.object o) remainingPath parseContext (allocated (heapCalls + 1))

end Gr8os.Ob.ReparseBuffers
