import Gr8os.Ex.HeapRuns

/-! The heap guard: a table of the blocks that a thread allocates in its guarded region, and the calls of the heap
as they keep it. The table's entries are kept beside the heap: they take up one of the heap's blocks, of which
nothing else reads the data. -/
namespace Gr8os.Ex.HeapGuard

open Intrusive Ke Bytes Runs

/-- EX_GUARD_TABLE_INITIAL_SIZE -/
def exGuardTableInitialSize : Nat := 128

/-- EHEAP_GUARD_TABLE, where it is and where its entries are. NULL is `none`. -/
structure EheapGuardTable where
  guardTable : Nat
  table : Nat
  entries : List (Option Nat)
deriving DecidableEq, Repr

/-- ExCurrentThreadGuardTable, of a thread for which ExIsCurrentThreadGuarded. -/
abbrev Guard := Option EheapGuardTable

/-- A full table stops the kernel. -/
def expLogAllocation (t : EheapGuardTable) (blockBeingAllocated : Nat) : Option EheapGuardTable :=
  if none ∈ t.entries then some { t with entries := t.entries.replace none (some blockBeingAllocated) } else none

def expLogFreeing (t : EheapGuardTable) (blockBeingFreed : Nat) : EheapGuardTable :=
  { t with entries := t.entries.replace (some blockBeingFreed) none }

def expLogRellocation (t : EheapGuardTable) (blockBeingFreed blockBeingAllocated : Nat) : EheapGuardTable :=
  { t with entries := t.entries.replace (some blockBeingFreed) (some blockBeingAllocated) }

def Guard.logAllocation (guard : Guard) (a : Nat) : Option Guard :=
  match guard with
  | none => some none
  | some t => (expLogAllocation t a).map some

def Guard.logFreeing (guard : Guard) (a : Nat) : Guard := guard.map (expLogFreeing · a)

def Guard.logRellocation (guard : Guard) (a b : Nat) : Guard := guard.map (expLogRellocation · a b)

/-- Both branches log the block last. -/
def expAllocateHeapInBlock (s : Heap) (guard : Guard) (a : Nat) (size : BitVec 32) : Option (Nat × Heap × Guard) :=
  (Ex.expAllocateHeapInBlock s a size).bind fun r => (guard.logAllocation a).map fun guard => (r.1, r.2, guard)

def exAllocateHeap (s : Heap) (guard : Guard) (size : BitVec 32) : Option (Option Nat × Heap × Guard) :=
  (expFindIdealBlock s size).bind fun
    | none => some (none, s, guard)
    | some a => (expAllocateHeapInBlock s guard a size).map fun r => (some r.1, r.2)

section headType

variable (headType : Heap → BitVec 8)

/-- The block that is taken in is logged. -/
def walkDown : Nat → Heap → Guard → Nat → Nat → Option (Heap × Guard)
  | 0, _, _, _, _ => none
  | fuel + 1, s, guard, prevBlock, currBlock =>
    (typeAt headType s currBlock).bind fun blockType =>
      if blockType ≠ heapBlockFree then some (s, guard)
      else (mergeBlocks s prevBlock currBlock).bind fun s =>
        let guard := guard.logFreeing currBlock
        let currBlock := s.memoryOrderList.flink prevBlock
        if currBlock = expMemoryOrderBlockList then some (s, guard) else walkDown fuel s guard prevBlock currBlock

def walkUp : Nat → Heap → Guard → Nat → Nat → Option (Heap × Guard)
  | 0, _, _, _, _ => none
  | fuel + 1, s, guard, prevBlock, currBlock =>
    (typeAt headType s currBlock).bind fun blockType =>
      if blockType ≠ heapBlockFree then some (s, guard)
      else (mergeBlocks s currBlock prevBlock).bind fun s =>
        let guard := guard.logFreeing prevBlock
        let currBlock := s.memoryOrderList.blink currBlock
        if currBlock = expMemoryOrderBlockList then some (s, guard) else walkUp fuel s guard prevBlock currBlock

def expRebuildFreeBlocks (s : Heap) (guard : Guard) (a : Nat) : Option (Heap × Guard) :=
  if !expCheckBlockValid s a then none
  else (walkDown headType heapBlocks s guard a (s.memoryOrderList.flink a)).bind fun r =>
    walkUp headType heapBlocks r.1 r.2 a (r.1.memoryOrderList.blink a)

def expFreeHeapBlock (s : Heap) (guard : Guard) (a : Nat) : Option (Heap × Guard) :=
  (s.block a).bind fun b =>
    let guard := guard.logFreeing a
    let b := { b with blockType := heapBlockFree }
    (((s.setBlock a (b.recalculated a)).moveTo expFreeBlockList a).writeFreedPadding a).bind fun s =>
      expRebuildFreeBlocks headType s guard a

def exFreeHeap (s : Heap) (guard : Guard) (ptr : Nat) : Option (Heap × Guard) :=
  let a := ptr - 32
  if !expCheckBlockValid s a then none
  else (s.block a).bind fun b =>
    if b.blockType = heapBlockLocked ∨ b.blockType = heapBlockFree ∨ b.blockType = freedPadding then none
    else expFreeHeapBlock headType s guard a

def exReallocHeap (s : Heap) (guard : Guard) (ptr : Nat) (newSize : BitVec 32) : Option (Option Nat × Heap × Guard) :=
  let a := ptr - 32
  (s.block a).bind fun b =>
    if b.blockType = heapBlockFree ∨ b.blockType = heapBlockLocked then none
    else if !expCheckBlockValid s a then none
    else
      let nSize := alignedUnits newSize
      if nSize ≤ b.size then (reallocInPlace headType s a b newSize nSize).map fun s => (some ptr, s, guard)
      else (growsInPlace headType s a b nSize).bind fun grows =>
        if grows then none
        else (expFindIdealBlock s newSize).bind fun
          | none => some (none, s, guard)
          | some idealBlock =>
            (expAllocateHeapInBlock s guard idealBlock newSize).bind fun r => (r.2.1.block a).bind fun b =>
              let s := r.2.1.memcpy r.1 ptr (b.size * 16 - b.paddingSize.setWidth 32).toNat
              let guard := r.2.2.logRellocation a idealBlock
              (expFreeHeapBlock headType s guard a).map fun freed => (some r.1, freed)

/-- The table is allocated while the thread is not guarded yet. Without memory for it the kernel writes to NULL. -/
def exEnterHeapGuardedRegion (s : Heap) (guard : Guard) : Option (Heap × EheapGuardTable) :=
  if guard.isSome then none
  else (Ex.exAllocateHeap s 8).bind fun r => r.1.bind fun guardTable =>
    (Ex.exAllocateHeap r.2 (4 * BitVec.ofNat 32 exGuardTableInitialSize)).bind fun r => r.1.map fun table =>
      (r.2, ⟨guardTable, table, List.replicate exGuardTableInitialSize none⟩)

/-- The table is freed when the thread is not guarded any more. -/
def exLeaveHeapGuardedRegion (s : Heap) (guard : Guard) : Option Heap :=
  guard.bind fun t =>
    if t.entries.any Option.isSome then none
    else (Ex.exFreeHeap headType s t.table).bind fun s => Ex.exFreeHeap headType s t.guardTable

end headType

/-- The heap with its clients, and what is known of one thread: its guard, and the blocks that it has allocated in
the region it is in and that are allocated still. -/
structure GuardState where
  clients : HeapState
  guard : Guard
  region : List Nat

inductive GuardCall where
  | enter
  | leave
  /-- The thread calls. -/
  | call (call : HeapCall)
  /-- Another thread calls, which logs nothing here. -/
  | others (call : HeapCall)

/-- Outside of a region no blocks are counted. -/
def GuardState.noted (s : GuardState) (change : List Nat → List Nat) : List Nat :=
  if s.guard.isSome then change s.region else s.region

section calls

variable (headType : Heap → BitVec 8)

/-- A call of the thread that returns. -/
def GuardState.call (s : GuardState) : HeapCall → Option GuardState
  | .allocate size => (exAllocateHeap s.clients.heap s.guard size).map fun r =>
    match r.1 with
    | none => { s with clients := { s.clients with heap := r.2.1 }, guard := r.2.2 }
    | some ptr =>
      { clients := ⟨r.2.1, Function.update s.clients.held ptr (some ⟨size, false⟩)⟩
        guard := r.2.2
        region := s.noted fun region => (ptr - 32) :: region }
  | .realloc ptr newSize => (exReallocHeap headType s.clients.heap s.guard ptr newSize).map fun r =>
    match r.1 with
    | none => { s with clients := { s.clients with heap := r.2.1 }, guard := r.2.2 }
    | some new =>
      { clients := ⟨r.2.1, Function.update (Function.update s.clients.held ptr none) new (some ⟨newSize, false⟩)⟩
        guard := r.2.2
        region := if new = ptr then s.region else s.noted fun region => (new - 32) :: region.erase (ptr - 32) }
  | .free ptr => (exFreeHeap headType s.clients.heap s.guard ptr).map fun r =>
    { clients := ⟨r.1, Function.update s.clients.held ptr none⟩
      guard := r.2
      region := s.noted fun region => region.erase (ptr - 32) }
  | call => (s.clients.call headType call).map fun clients => { s with clients := clients }

def GuardState.step (s : GuardState) : GuardCall → Option GuardState
  | .enter => (exEnterHeapGuardedRegion s.clients.heap s.guard).map fun r =>
    { clients := ⟨r.1, Function.update (Function.update s.clients.held r.2.guardTable (some ⟨8, false⟩))
        r.2.table (some ⟨4 * BitVec.ofNat 32 exGuardTableInitialSize, false⟩)⟩
      guard := some r.2
      region := [] }
  | .leave => s.guard.bind fun t => (exLeaveHeapGuardedRegion headType s.clients.heap s.guard).map fun heap =>
    { clients := ⟨heap, Function.update (Function.update s.clients.held t.table none) t.guardTable none⟩
      guard := none
      region := [] }
  | .call call => s.call headType call
  | .others call => (s.clients.call headType call).map fun clients => { s with clients := clients }

end calls

/-- The size can be rounded up to units. -/
def Small (s : Heap) : HeapCall → Prop
  | .allocate size => size < 0xFFFFFFF1 ∨ isListEmpty s.list expFreeBlockList = true
  | .realloc _ newSize => newSize < 0xFFFFFFF1
  | _ => True

/-- A client calls with blocks that it holds, and not with those of the guard. -/
def Owned (s : GuardState) (call : HeapCall) : Prop :=
  Live false s.clients call ∧ ∀ t ∈ s.guard, call.pointer ≠ some t.guardTable ∧ call.pointer ≠ some t.table

/-- The threads call with blocks of their own: no other thread has a block of the region. -/
def Orderly (s : GuardState) : GuardCall → Prop
  | .enter | .leave => True
  | .call call => Owned s call
  | .others call => Owned s call ∧ ∀ ptr ∈ call.pointer, ptr - 32 ∉ s.region

/-- No size is rounded up past 32 bits, and no block of the region moves when it is reallocated: it has the units, or
no free block has. -/
def Stationary (s : GuardState) : GuardCall → Prop
  | .call call => Small s.clients.heap call ∧
    match call with
    | .realloc ptr newSize => ptr - 32 ∈ s.region → ∀ b ∈ s.clients.heap.block (ptr - 32),
        alignedUnits newSize ≤ b.size ∨ expFindIdealBlock s.clients.heap newSize = some none
    | _ => True
  | .others call => Small s.clients.heap call
  | _ => True

instance (s : Heap) : (call : HeapCall) → Decidable (Small s call)
  | .allocate _ => inferInstanceAs (Decidable (_ ∨ _))
  | .realloc _ newSize => inferInstanceAs (Decidable (newSize < 0xFFFFFFF1))
  | .free _ | .lock _ | .unlock _ | .write .. => isTrue trivial

instance (s : GuardState) (call : HeapCall) : Decidable (Owned s call) := inferInstanceAs (Decidable (_ ∧ _))

instance (s : GuardState) : (call : GuardCall) → Decidable (Orderly s call)
  | .enter | .leave => isTrue trivial
  | .call call => inferInstanceAs (Decidable (Owned s call))
  | .others call => inferInstanceAs (Decidable (Owned s call ∧ ∀ ptr ∈ call.pointer, ptr - 32 ∉ s.region))

instance (s : GuardState) : (call : GuardCall) → Decidable (Stationary s call)
  | .enter | .leave => isTrue trivial
  | .call (.realloc ptr newSize) => inferInstanceAs (Decidable (newSize < 0xFFFFFFF1 ∧
    (ptr - 32 ∈ s.region → ∀ b ∈ s.clients.heap.block (ptr - 32),
      alignedUnits newSize ≤ b.size ∨ expFindIdealBlock s.clients.heap newSize = some none)))
  | .call (.allocate size) => inferInstanceAs (Decidable (Small s.clients.heap (.allocate size) ∧ True))
  | .call (.free _) | .call (.lock _) | .call (.unlock _) | .call (.write ..) => isTrue ⟨trivial, trivial⟩
  | .others call => inferInstanceAs (Decidable (Small s.clients.heap call))

/-- The steps of orderly threads. -/
def GuardStep (headType : Heap → BitVec 8) : GuardState → GuardCall → GuardState → Prop :=
  Guarded Orderly fun s call t => s.step headType call = some t

/-- The steps of orderly threads that move no block of the region. -/
def StationaryStep (headType : Heap → BitVec 8) : GuardState → GuardCall → GuardState → Prop :=
  Guarded (fun s call => Orderly s call ∧ Stationary s call) fun s call t => s.step headType call = some t

/-- The kernel's heap at the start, and a thread that is not guarded. -/
def GuardState.start (memory : Buffer) (links : Links Nat) (expHeapCookie : BitVec 16) : GuardState where
  clients := .start memory links expHeapCookie
  guard := none
  region := []

end Gr8os.Ex.HeapGuard
