import Gr8os.Status

/-! Object names: ObReferenceObjectByName over the directories and the parse routines. A string is the
list of the characters before its terminator; a heap call succeeds or not as an oracle tells. -/
namespace Gr8os.Ob

abbrev WChar := BitVec 16

def backslash : WChar := 0x5C

inductive ObjectType
  | directory
  | symbolicLink
  | device
  | other (n : Nat)
deriving DecidableEq, Repr

inductive ProcessorMode
  | kernelMode
  | driverMode
  | userMode
deriving DecidableEq, Repr

/-- What follows the header. -/
inductive Body
  | directory (objectList : List Nat)
  | symbolicLink (target : List WChar)
  | device
  | other (objectType : Nat)
deriving DecidableEq, Repr

/-- The defaults are what ObCreateObject sets. `parentDirectory` is there while DirectoryList is linked, and
`references` lists the objects that the DeleteRoutine of the object's type dereferences, in its order. -/
structure ObjectHeader where
  objectName : List WChar
  referenceCount : BitVec 32
  body : Body
  parentDirectory : Option Nat := none
  handleCount : BitVec 32 := 0
  flags : BitVec 32 := 0
  references : List Nat := []
deriving DecidableEq, Repr

def ObjectHeader.objectType (h : ObjectHeader) : ObjectType :=
  match h.body with
  | .directory _ => .directory
  | .symbolicLink _ => .symbolicLink
  | .device => .device
  | .other n => .other n

structure ObjectSpace where
  object : Nat → ObjectHeader
  obRootObjectDirectory : Nat

def ObjectSpace.objectList (s : ObjectSpace) (directory : Nat) : List Nat :=
  match (s.object directory).body with
  | .directory objectList => objectList
  | _ => []

def obReferenceObject (s : ObjectSpace) (o : Nat) : ObjectSpace :=
  { s with object := fun p =>
    if p = o then { s.object p with referenceCount := (s.object p).referenceCount + 1 } else s.object p }

structure UnicodeString where
  buffer : List WChar
  length : BitVec 16
deriving DecidableEq, Repr

def rtlInitUnicodeString (buffer : List WChar) : UnicodeString := ⟨buffer, BitVec.ofNat 16 (buffer.length * 2)⟩

def wcscmp (wstr wstr2 : List WChar) : Int :=
  if wstr.length ≠ wstr2.length then -1
  else match (wstr.zip wstr2).find? fun p => p.1 - p.2 ≠ 0 with
    | some p => ((p.1 - p.2).toNat : Int)
    | none => 0

def wcssubstr (sourceString : List WChar) (startPosition length : Nat) : List WChar :=
  (sourceString.drop startPosition).take length

/-- The loop over the object list of a directory. -/
def findObject (s : ObjectSpace) (objectName : List WChar) : List Nat → Option Nat
  | [] => none
  | o :: rest => if wcscmp (s.object o).objectName objectName = 0 then some o else findObject s objectName rest

def obpFindObjectInDirectory (s : ObjectSpace) (directory : Nat) (objectName : List WChar) : Option Nat :=
  findObject s objectName (s.objectList directory)

/-- What a parse routine returns: its status, ReparsePath, and what it stores in the parse packet. -/
structure Parsed where
  status : Status
  reparsePath : Option UnicodeString
  packet : Option (List WChar)
deriving DecidableEq, Repr

def obpParseSymbolicLink (target remainingPath : List WChar) (parseContext : BitVec 32) (allocated : Bool) : Parsed :=
  if parseContext ≠ 1 then
    if !allocated then ⟨.insufficientResources, none, none⟩
    else
      let length := (rtlInitUnicodeString target).length + (rtlInitUnicodeString remainingPath).length
      ⟨.reparse, some ⟨target ++ remainingPath, length⟩, none⟩
  else ⟨.success, none, none⟩

def iopParseDevice (remainingPath : List WChar) (parseContext : BitVec 32) : Parsed :=
  ⟨.finishParsing, none, if parseContext &&& 0xFFFF0000 ≠ 0 then some remainingPath else none⟩

/-- The ParseRoutine of the object's type, if it has one. -/
def parseRoutine (h : ObjectHeader) (remainingPath : List WChar) (parseContext : BitVec 32) (allocated : Bool) :
    Option Parsed :=
  match h.body with
  | .symbolicLink target => some (obpParseSymbolicLink target remainingPath parseContext allocated)
  | .device => some (iopParseDevice remainingPath parseContext)
  | _ => none

/-- How the loop over one path ends. -/
inductive LoopEnd
  | returned (status : Status)
  | finish (o : Nat) (packet : Option (List WChar))
  | reparse (path : UnicodeString) (heapCalls : Nat)
  | fuel
deriving DecidableEq, Repr

/-- What a parse routine decides, or nothing if the loop goes on. -/
def afterParse (o heapCalls : Nat) : Option Parsed → Option LoopEnd
  | none => none
  | some parsed =>
    if !parsed.status.isSuccess then some (.returned parsed.status)
    else if parsed.status = .reparse then some (.reparse (parsed.reparsePath.getD ⟨[], 0⟩) heapCalls)
    else if parsed.status = .finishParsing then some (.finish o parsed.packet)
    else none

/-- The loop of ObReferenceObjectByName; `prevslash` and `wc` count characters from ParseBuffer. -/
def nameLoop (allocated : Nat → Bool) (s : ObjectSpace) (parseContext : BitVec 32) (path : UnicodeString) :
    Nat → Nat → Nat → Nat → Nat → LoopEnd
  | 0, _, _, _, _ => .fuel
  | fuel + 1, currentDirectory, prevslash, wc, heapCalls =>
    if path.buffer[wc]? = some backslash ∨ 2 * wc ≥ path.length.toNat then
      if !allocated heapCalls then .returned .insufficientResources
      else
        let tempName := wcssubstr (path.buffer.drop (prevslash + 1)) 0 ((2 * wc - 2 * prevslash) / 2 - 1)
        match obpFindObjectInDirectory s currentDirectory tempName with
        | none => .returned .notFound
        | some o =>
          let parsed := parseRoutine (s.object o) (path.buffer.drop wc) parseContext (allocated (heapCalls + 1))
          match afterParse o (heapCalls + 2) parsed with
          | some e => e
          | none =>
            if 2 * wc ≥ path.length.toNat then .finish o none
            else if (s.object o).objectType ≠ .directory then .returned .notFound
            else nameLoop allocated s parseContext path fuel o wc (wc + 1) (heapCalls + 1)
    else nameLoop allocated s parseContext path fuel currentDirectory prevslash (wc + 1) heapCalls

structure NameResult where
  status : Status
  object : Option Nat
  packet : Option (List WChar)
  space : ObjectSpace

/-- The type check and the reference behind `finish`. -/
def finishName (s : ObjectSpace) (objectType : Option ObjectType) (requestorMode : ProcessorMode) (o : Nat)
    (packet : Option (List WChar)) : NameResult :=
  if requestorMode = .userMode ∧ some (s.object o).objectType ≠ objectType then
    ⟨.accessDenied, none, packet, s⟩
  else ⟨.success, some o, packet, obReferenceObject s o⟩

/-- ObReferenceObjectByName from the label `reparse`; `fuel` bounds the reparses. -/
def reparseName (allocated : Nat → Bool) (s : ObjectSpace) (objectType : Option ObjectType)
    (requestorMode : ProcessorMode) (parseContext : BitVec 32) : Nat → UnicodeString → Nat → Option NameResult
  | 0, _, _ => none
  | fuel + 1, path, heapCalls =>
    if path.buffer[0]? ≠ some backslash then some ⟨.notFound, none, none, s⟩
    else
      match nameLoop allocated s parseContext path (path.buffer.length + 1) s.obRootObjectDirectory 0 1 heapCalls with
      | .returned status => some ⟨status, none, none, s⟩
      | .finish o packet => some (finishName s objectType requestorMode o packet)
      | .reparse path heapCalls => reparseName allocated s objectType requestorMode parseContext fuel path heapCalls
      | .fuel => none

def obReferenceObjectByName (allocated : Nat → Bool) (s : ObjectSpace) (fuel : Nat) (objectName : UnicodeString)
    (objectType : Option ObjectType) (requestorMode : ProcessorMode) (parseContext : BitVec 32) : Option NameResult :=
  reparseName allocated s objectType requestorMode parseContext fuel objectName 0

end Gr8os.Ob
