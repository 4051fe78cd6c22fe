import Gr8os.Ke.ListEntry
import Gr8os.Lib.Bytes

/-! The kernel heap: blocks in one arena, each on a list in memory order and on the list of the free or of the
allocated blocks. A result is `none` where the kernel stops (a bug check) or reads a header that is none. -/
namespace Gr8os.Ex

open Intrusive Ke Bytes

def heapBlockFree : BitVec 8 := 1

def heapBlockAllocated : BitVec 8 := 2

def heapBlockLocked : BitVec 8 := 3

def allocatedPadding : BitVec 8 := 0xFE

def freedPadding : BitVec 8 := 0xFD

/-- MM_KERNEL_HEAP. -/
def expHeapArea : Nat := 0x80200000

def expHeapSize : Nat := 0x1000000

/-- The fields of EHEAP_BLOCK before Data, but for the two list entries. Size is in units of 16 bytes. -/
structure EheapBlock where
  magic1 : BitVec 32
  size : BitVec 32
  blockType : BitVec 8
  paddingSize : BitVec 8
  cookie : BitVec 16
  magic2 : BitVec 32
deriving DecidableEq, Repr

/-- A block and its list entries are known by the address of the block, where the header takes 32 bytes of
the arena. `byte` is the arena outside the headers. -/
structure Heap where
  block : Nat → Option EheapBlock
  list : Links Nat
  memoryOrderList : Links Nat
  byte : Buffer
  expHeapCookie : BitVec 16

/- The list heads are no blocks: they lie outside the arena. -/
def expFreeBlockList : Nat := 0

def expAllocatedBlockList : Nat := 1

def expMemoryOrderBlockList : Nat := 2

/-- A header that is written over is a header no more. -/
def Heap.memset (s : Heap) (dest : Nat) (value : BitVec 8) (length : Nat) : Heap :=
  { s with
    byte := fill s.byte dest (dest + length) fun _ => value
    block := fun a => if 0 < length ∧ a < dest + length ∧ dest < a + 32 then none else s.block a }

def Heap.memcpy (s : Heap) (dest src length : Nat) : Heap :=
  { s with
    byte := Bytes.memcpy s.byte dest s.byte src length
    block := fun a => if 0 < length ∧ a < dest + length ∧ dest < a + 32 then none else s.block a }

def Heap.setBlock (s : Heap) (a : Nat) (b : EheapBlock) : Heap :=
  { s with block := fun p => if p = a then some b else s.block p }

def expChecksumBlock (a : Nat) (b : EheapBlock) : BitVec 32 :=
  (b.paddingSize.setWidth 32 + b.blockType.setWidth 32 + b.size + b.cookie.setWidth 32) ^^^ BitVec.ofNat 32 a

/-- ExpRecalculateChecksumBlock, on the header of the block at `a`. -/
def EheapBlock.recalculated (b : EheapBlock) (a : Nat) : EheapBlock :=
  { b with magic1 := expChecksumBlock a b, magic2 := expChecksumBlock a b }

/-- All bytes of a stretch have one value. -/
def filledWith (byte : Buffer) (start length : Nat) (value : BitVec 8) : Bool :=
  (List.range length).all fun i => byte (start + i) = value

/-- ExpCheckBlockValid returns, and does not stop the kernel. -/
def expCheckBlockValid (s : Heap) (a : Nat) : Bool :=
  match s.block a with
  | none => false
  | some b =>
    b.cookie = s.expHeapCookie && b.magic1 = expChecksumBlock a b && b.magic2 = expChecksumBlock a b &&
      if b.blockType = heapBlockAllocated then
        filledWith s.byte (a + 32 + 16 * b.size.toNat - b.paddingSize.toNat) b.paddingSize.toNat allocatedPadding
      else if b.blockType = heapBlockFree ∧ b.size < 65536 then
        filledWith s.byte (a + 32) (16 * b.size.toNat) freedPadding
      else true

/-- EXP_WRITE_BLOCK_ALLOC_PADDING -/
def Heap.writeAllocPadding (s : Heap) (a : Nat) : Option Heap :=
  (s.block a).map fun b =>
    s.memset (a + 32 + 16 * b.size.toNat - b.paddingSize.toNat) allocatedPadding b.paddingSize.toNat

/-- EXP_WRITE_BLOCK_FREED_PADDING -/
def Heap.writeFreedPadding (s : Heap) (a : Nat) : Option Heap :=
  (s.block a).map fun b => s.memset (a + 32) freedPadding (16 * b.size.toNat)

/-- ALIGN_UP to EX_HEAP_ALIGN, in units of it. -/
def alignedUnits (size : BitVec 32) : BitVec 32 :=
  (if size &&& 15 ≠ 0 then (size &&& ~~~15) + 16 else size) >>> 4

/-- A block changes the list it is on. -/
def Heap.moveTo (s : Heap) (listHead a : Nat) : Heap :=
  { s with list := insertTailList (removeEntryList s.list a) listHead a }

/-- The list entry at `a` moves by a distance: the two pointers at it do, and then it is copied there. -/
def moveEntry (l : Links Nat) (a : Nat) (move : Nat → Nat) : Links Nat :=
  let l := l.setFlink (l.blink a) (move (l.flink (l.blink a)))
  let l := l.setBlink (l.flink a) (move (l.blink (l.flink a)))
  (l.setFlink (move a) (l.flink a)).setBlink (move a) (l.blink a)

/-- A header is written where there was data, whose byte stays in the one field that is not. -/
def Heap.newFreeBlock (s : Heap) (a : Nat) (size : BitVec 32) : Heap :=
  let b : EheapBlock :=
    { magic1 := 0, size := size, blockType := heapBlockFree, paddingSize := s.byte (a + 17),
      cookie := s.expHeapCookie, magic2 := 0 }
  s.setBlock a (b.recalculated a)

def expAllocateHeapInBlock (s : Heap) (a : Nat) (size : BitVec 32) : Option (Nat × Heap) :=
  (s.block a).bind fun b =>
    let nSize := alignedUnits size
    let diff := b.size - nSize
    if diff ≤ 2 then
      let b := { b with blockType := heapBlockAllocated, paddingSize := (b.size * 16 - size).setWidth 8 }
      ((s.setBlock a (b.recalculated a)).writeAllocPadding a).map fun s => (a + 32, s.moveTo expAllocatedBlockList a)
    else
      let nextBlock := a + 32 + 16 * nSize.toNat
      let b := { b with
        size := nSize, blockType := heapBlockAllocated, paddingSize := (nSize * 16 - size).setWidth 8 }
      ((s.setBlock a (b.recalculated a)).writeAllocPadding a).map fun s =>
        let s := (s.moveTo expAllocatedBlockList a).newFreeBlock nextBlock (diff - 2)
        (a + 32, { s with
          list := insertTailList s.list expFreeBlockList nextBlock
          memoryOrderList := insertHeadList s.memoryOrderList a nextBlock })

/-- More blocks than the arena has room for. -/
def heapBlocks : Nat := 0x80001

/-- The smallest of the free blocks that are large enough; each of them is checked on the way. -/
def findIdeal (s : Heap) (nSize : BitVec 32) : Nat → Nat → Option (Nat × BitVec 32) → Option (Option Nat)
  | 0, _, _ => none
  | fuel + 1, a, ideal =>
    if a = expFreeBlockList then some (ideal.map (·.1))
    else if !expCheckBlockValid s a then none
    else (s.block a).bind fun b =>
      findIdeal s nSize fuel (s.list.flink a)
        (if nSize ≤ b.size ∧ ideal.all (fun i => b.size < i.2) then some (a, b.size) else ideal)

def expFindIdealBlock (s : Heap) (size : BitVec 32) : Option (Option Nat) :=
  findIdeal s (alignedUnits size) heapBlocks (s.list.flink expFreeBlockList) none

def exAllocateHeap (s : Heap) (size : BitVec 32) : Option (Option Nat × Heap) :=
  (expFindIdealBlock s size).bind fun
    | none => some (none, s)
    | some a => (expAllocateHeapInBlock s a size).map fun r => (some r.1, r.2)

section headType

-- The byte in front of ExpMemoryOrderBlockList, which the code reads as a BlockType when it takes the list head
-- for a block. Where the compiler puts its globals decides what is there.
variable (headType : Heap → BitVec 8)

def typeAt (s : Heap) (a : Nat) : Option (BitVec 8) :=
  if a = expMemoryOrderBlockList then some (headType s) else (s.block a).map (·.blockType)

/-- The block at `c` becomes part of the one at `p`. -/
def mergeBlocks (s : Heap) (p c : Nat) : Option Heap :=
  (s.block p).bind fun bp => (s.block c).map fun bc =>
    let b := { bp with size := bp.size + (bc.size + 2) }
    let s := s.setBlock p (b.recalculated p)
    let s := { s with list := removeEntryList s.list c, memoryOrderList := removeEntryList s.memoryOrderList c }
    s.memset c freedPadding 32

def walkDown : Nat → Heap → Nat → Nat → Option Heap
  | 0, _, _, _ => none
  | fuel + 1, s, prevBlock, currBlock =>
    (typeAt headType s currBlock).bind fun blockType =>
      if blockType ≠ heapBlockFree then some s
      else (mergeBlocks s prevBlock currBlock).bind fun s =>
        let currBlock := s.memoryOrderList.flink prevBlock
        if currBlock = expMemoryOrderBlockList then some s else walkDown fuel s prevBlock currBlock

/-- PrevBlock stays what it was when the walk goes on. -/
def walkUp : Nat → Heap → Nat → Nat → Option Heap
  | 0, _, _, _ => none
  | fuel + 1, s, prevBlock, currBlock =>
    (typeAt headType s currBlock).bind fun blockType =>
      if blockType ≠ heapBlockFree then some s
      else (mergeBlocks s currBlock prevBlock).bind fun s =>
        let currBlock := s.memoryOrderList.blink currBlock
        if currBlock = expMemoryOrderBlockList then some s else walkUp fuel s prevBlock currBlock

def expRebuildFreeBlocks (s : Heap) (a : Nat) : Option Heap :=
  if !expCheckBlockValid s a then none
  else (walkDown headType heapBlocks s a (s.memoryOrderList.flink a)).bind fun s =>
    walkUp headType heapBlocks s a (s.memoryOrderList.blink a)

def expFreeHeapBlock (s : Heap) (a : Nat) : Option Heap :=
  (s.block a).bind fun b =>
    let b := { b with blockType := heapBlockFree }
    (((s.setBlock a (b.recalculated a)).moveTo expFreeBlockList a).writeFreedPadding a).bind fun s =>
      expRebuildFreeBlocks headType s a

def exFreeHeap (s : Heap) (ptr : Nat) : Option Heap :=
  let a := ptr - 32
  if !expCheckBlockValid s a then none
  else (s.block a).bind fun b =>
    if b.blockType = heapBlockLocked ∨ b.blockType = heapBlockFree ∨ b.blockType = freedPadding then none
    else expFreeHeapBlock headType s a

/-- The block in front of a free one gives units to it: the free block's header moves back. -/
def moveHeaderBack (s : Heap) (nextBlock distance : Nat) (units : BitVec 32) : Option Heap :=
  (s.block nextBlock).map fun n =>
    let s := { s with
      list := moveEntry s.list nextBlock (· - distance)
      memoryOrderList := moveEntry s.memoryOrderList nextBlock (· - distance) }
    let s := s.setBlock (nextBlock - distance) { n with size := n.size + units }
    (s.memset nextBlock freedPadding 32).memset (nextBlock - distance + 32) freedPadding distance

/-- The branches of ExReallocHeap for a size that takes no more units than the block has. -/
def reallocInPlace (s : Heap) (a : Nat) (b : EheapBlock) (newSize nSize : BitVec 32) : Option Heap :=
  if b.size - nSize < 2 then
    let b := { b with paddingSize := (b.size * 16 - newSize).setWidth 8 }
    (s.setBlock a (b.recalculated a)).writeAllocPadding a
  else
    let nextBlock := s.memoryOrderList.flink a
    (typeAt headType s nextBlock).bind fun nextType =>
      if nextType = heapBlockFree then
        (moveHeaderBack s nextBlock (16 * (b.size - nSize).toNat) (b.size - nSize)).bind fun s =>
          let nextBlock := nextBlock - 16 * (b.size - nSize).toNat
          let b := { b with size := nSize, paddingSize := (nSize * 16 - newSize).setWidth 8 }
          ((s.setBlock a b).writeAllocPadding a).bind fun s =>
            (s.block nextBlock).map fun n =>
              (s.setBlock a (b.recalculated a)).setBlock nextBlock (n.recalculated nextBlock)
      else if b.size - nSize = 2 then
        let b := { b with paddingSize := b.paddingSize + (newSize - nSize * 16).setWidth 8 }
        ((s.setBlock a (b.recalculated a)).writeAllocPadding a).bind fun s =>
          if !expCheckBlockValid s a then none else some s
      else
        let nextBlock := a + 32 + 16 * nSize.toNat
        let s := s.newFreeBlock nextBlock (b.size - nSize - 2)
        let s := { s with
          memoryOrderList := insertHeadList s.memoryOrderList a nextBlock
          list := insertTailList s.list expFreeBlockList nextBlock }
        let b := { b with size := nSize, paddingSize := (nSize * 16 - newSize).setWidth 8 }
        ((s.setBlock a b).writeAllocPadding a).bind fun s =>
          (s.setBlock a (b.recalculated a)).writeFreedPadding nextBlock

/-- The next block is free and has the units that are missing. -/
def growsInPlace (s : Heap) (a : Nat) (b : EheapBlock) (nSize : BitVec 32) : Option Bool :=
  let nextBlock := s.memoryOrderList.flink a
  (typeAt headType s nextBlock).bind fun nextType =>
    if nextType ≠ heapBlockFree then some false
    else (s.block nextBlock).map fun n => nSize + 2 < n.size + b.size

/-- When the block grows into the next one its header is moved by memmove, which looks for its arguments one
word below where they are: it copies as many bytes as From is an address over the code that it returns to,
and no heap is left. -/
def exReallocHeap (s : Heap) (ptr : Nat) (newSize : BitVec 32) : Option (Option Nat × Heap) :=
  let a := ptr - 32
  (s.block a).bind fun b =>
    if b.blockType = heapBlockFree ∨ b.blockType = heapBlockLocked then none
    else if !expCheckBlockValid s a then none
    else
      let nSize := alignedUnits newSize
      if nSize ≤ b.size then (reallocInPlace headType s a b newSize nSize).map fun s => (some ptr, s)
      else (growsInPlace headType s a b nSize).bind fun grows =>
        if grows then none
        else (expFindIdealBlock s newSize).bind fun
          | none => some (none, s)
          | some idealBlock =>
            (expAllocateHeapInBlock s idealBlock newSize).bind fun r => (r.2.block a).bind fun b =>
              let s := r.2.memcpy r.1 ptr (b.size * 16 - b.paddingSize.setWidth 32).toNat
              (expFreeHeapBlock headType s a).map fun s => (some r.1, s)

end headType

def exLockHeapBlock (s : Heap) (ptr : Nat) : Option Heap :=
  let a := ptr - 32
  (s.block a).bind fun b =>
    if b.blockType = heapBlockLocked ∨ b.blockType = heapBlockFree ∨ b.blockType = freedPadding then none
    else if !expCheckBlockValid s a then none
    else some (s.setBlock a (EheapBlock.recalculated { b with blockType := heapBlockLocked } a))

def exUnlockHeapBlock (s : Heap) (ptr : Nat) : Option Heap :=
  let a := ptr - 32
  (s.block a).bind fun b =>
    if b.blockType ≠ heapBlockLocked then none
    else if !expCheckBlockValid s a then none
    else some (s.setBlock a (EheapBlock.recalculated { b with blockType := heapBlockAllocated } a))

/-- The heap over memory in any state; the cookie comes from the time stamp counter. -/
def exInitializeHeap (memory : Buffer) (links : Links Nat) (expHeapCookie : BitVec 16) : Heap :=
  let initial := expHeapArea
  let list := initializeListHead (initializeListHead links expFreeBlockList) expAllocatedBlockList
  let memoryOrderList := initializeListHead links expMemoryOrderBlockList
  let size := BitVec.ofNat 32 ((expHeapSize - 32) / 16)
  let s : Heap :=
    { block := fun _ => none
      list := insertTailList list expFreeBlockList initial
      memoryOrderList := insertTailList memoryOrderList expMemoryOrderBlockList initial
      byte := memory
      expHeapCookie := expHeapCookie }
  (s.newFreeBlock initial size).memset (initial + 32) freedPadding (16 * size.toNat)

end Gr8os.Ex
