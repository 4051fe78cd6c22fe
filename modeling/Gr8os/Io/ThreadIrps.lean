import Gr8os.Ex.LiveBlocks
import Gr8os.Io.RequestBuffers
import Gr8os.Ke.ListEntry
import Gr8os.Lib.Run
import Mathlib.Data.List.Perm.Basic
import Mathlib.Order.SetNotation

/-! The requests that the threads wait for: in whose list they are, and which blocks of the heap they hold. -/
namespace Gr8os.Io.ThreadIrps

open Bytes Intrusive Ke Runs

/-- The list of a thread, and the entry of a request for it. -/
inductive IrpEntry (T : Type)
  | irpList (thread : T)
  | threadListEntry (irp : Nat)
deriving DecidableEq

/-- A request in the list of a thread. Its system buffer is a block of the heap if it has not been mapped. -/
structure QueuedIrp (T : Type) where
  callerThread : T
  irp : Irp
  block : Option Nat

structure IrpState (T H : Type) where
  links : Links (IrpEntry T)
  irps : Nat → Option (QueuedIrp T)
  heap : H

section driver

variable {T H : Type} [DecidableEq T] (K : Ex.KernelHeap H) (sizeofIrp sizeofIrpStackLocation : BitVec 32)

def fullIrpSize (stackSize : StackSize) : BitVec 32 :=
  sizeofIrp + (stackSize.1.setWidth 32 - 1) * sizeofIrpStackLocation

/-- A block of the heap, or pages that may be mapped. -/
def allocateBuffer (buffer : Allocation) (mapped : Bool) (heap : H) : Option (Option Nat × H) :=
  match buffer.allocator with
  | .exAllocateHeap => (K.exAllocateHeap heap buffer.size).map fun (block, heap) => (some block, heap)
  | .mmAllocateMemory => if mapped then some (none, heap) else none

/-- The entry is made an empty list when the request is allocated. -/
def iopQueueThreadIrp (links : Links (IrpEntry T)) (thread : T) (irp : Nat) : Links (IrpEntry T) :=
  insertTailList (initializeListHead links (.threadListEntry irp)) (.irpList thread) (.threadListEntry irp)

def iopDequeueThreadIrp (links : Links (IrpEntry T)) (irp : Nat) : Links (IrpEntry T) :=
  initializeListHead (removeEntryList links (.threadListEntry irp)) (.threadListEntry irp)

def IrpState.queue (s : IrpState T H) (address : Nat) (q : QueuedIrp T) (heap : H) : IrpState T H where
  links := iopQueueThreadIrp s.links q.callerThread address
  irps := Function.update s.irps address (some q)
  heap := heap

/-- What a request is built as, and where. -/
abbrev Built (T H : Type) := Option (Nat × QueuedIrp T) × IrpState T H

/-- Without a system buffer the request is given back. -/
def IrpState.ioBuildDeviceRequest (s : IrpState T H) (thread : T) (r : DeviceRequest) : Option (Built T H) :=
  (K.exAllocateHeap s.heap (fullIrpSize sizeofIrp sizeofIrpStackLocation r.stackSize)).bind fun (address, heap) =>
    let allocator := if r.bufferSize < pageSize then Allocator.exAllocateHeap else .mmAllocateMemory
    match allocateBuffer K ⟨allocator, r.bufferSize⟩ r.bufferAllocated heap with
    | none => some (none, { s with heap := K.exFreeHeap heap address })
    | some (block, heap) =>
      (Io.ioBuildDeviceRequest { r with irpAllocated := true, bufferAllocated := true }).join.map fun irp =>
        (some (address, ⟨thread, irp, block⟩), s.queue address ⟨thread, irp, block⟩ heap)

def IrpState.ioBuildDeviceIoControlRequest (s : IrpState T H) (thread : T) (r : ControlRequest) :
    Option (Built T H) :=
  (K.exAllocateHeap s.heap (fullIrpSize sizeofIrp sizeofIrpStackLocation r.stackSize)).bind fun (address, heap) =>
    let buffer := K.exAllocateHeap heap r.heapBuffer.size
    (Io.ioBuildDeviceIoControlRequest { r with irpAllocated := true, bufferAllocated := buffer.isSome }).map fun built =>
      let q := ⟨thread, built.1, buffer.map (·.1)⟩
      (some (address, q), s.queue address q (buffer.elim heap (·.2)))

/-- MmFreeMemory gives no block back to the heap. -/
def releaseBuffer (block : Option Nat) (heap : H) : Release → H
  | .exFreeHeap _ => block.elim heap (K.exFreeHeap heap)
  | .mmFreeMemory _ _ => heap

/-- The status that the driver has left in the request is that of its completion. -/
def IrpState.ioCompleteRequest (s : IrpState T H) (address : Nat) (ioStatus : IoStatusBlock)
    (memory systemBuffer : Buffer) : Option (Completed × IrpState T H) :=
  (s.irps address).bind fun q =>
    (Io.ioCompleteRequest { q.irp with ioStatus } memory systemBuffer).map fun c =>
      (c, {
        links := iopDequeueThreadIrp s.links address
        irps := Function.update s.irps address none
        heap := K.exFreeHeap (c.released.foldl (releaseBuffer K q.block) s.heap) address })

/-- What happens to the requests: one is built for a thread, or is not, or is completed. -/
inductive IrpCall (T : Type)
  | built (address : Nat) (q : QueuedIrp T)
  | refused
  | completed (address : Nat)

inductive IrpStep : IrpState T H → IrpCall T → IrpState T H → Prop
  | device {s t : IrpState T H} {thread : T} {r : DeviceRequest} {address : Nat} {q : QueuedIrp T}
      (run : s.ioBuildDeviceRequest K sizeofIrp sizeofIrpStackLocation thread r = some (some (address, q), t)) :
      IrpStep s (.built address q) t
  | refused {s t : IrpState T H} {thread : T} {r : DeviceRequest}
      (run : s.ioBuildDeviceRequest K sizeofIrp sizeofIrpStackLocation thread r = some (none, t)) : IrpStep s .refused t
  | control {s t : IrpState T H} {thread : T} {r : ControlRequest} {address : Nat} {q : QueuedIrp T}
      (run : s.ioBuildDeviceIoControlRequest K sizeofIrp sizeofIrpStackLocation thread r =
        some (some (address, q), t)) :
      IrpStep s (.built address q) t
  | complete {s t : IrpState T H} {address : Nat} {ioStatus : IoStatusBlock} {memory systemBuffer : Buffer}
      {c : Completed} (run : s.ioCompleteRequest K address ioStatus memory systemBuffer = some (c, t)) :
      IrpStep s (.completed address) t

end driver

/-! The requests as their threads see them. -/

/-- The requests outstanding, in the order in which they were built, and the blocks that nobody gives back. -/
structure Books (T : Type) where
  outstanding : List (Nat × QueuedIrp T)
  lost : List Nat

section books

variable {T : Type}

/-- A block is lost when the buffer has the length of a page, for then MmFreeMemory is called. -/
def QueuedIrp.lost (q : QueuedIrp T) : List Nat := if q.irp.bufferLength < pageSize then [] else q.block.toList

def Books.after (b : Books T) : IrpCall T → Books T
  | .built address q => { b with outstanding := b.outstanding ++ [(address, q)] }
  | .refused => b
  | .completed address => {
      outstanding := b.outstanding.filter fun p => p.1 ≠ address
      lost := b.lost ++ (b.outstanding.filter fun p => p.1 = address).flatMap fun p => p.2.lost }

def Books.empty : Books T := ⟨[], []⟩

/-- No buffer is lost, and none will be. -/
structure Books.Lossless (b : Books T) : Prop where
  lost : b.lost = []
  outstanding : ∀ p ∈ b.outstanding, p.2.lost = []

def blocksOf (ps : List (Nat × QueuedIrp T)) : List Nat := ps.flatMap fun p => p.1 :: p.2.block.toList

variable [DecidableEq T]

/-- The entries of the list of a thread. -/
def entriesOf (ps : List (Nat × QueuedIrp T)) (thread : T) : List (IrpEntry T) :=
  (ps.filter fun p => p.2.callerThread = thread).map fun p => .threadListEntry p.1

/-- No request has been built, and every list is empty. -/
structure Idle {H : Type} (s : IrpState T H) : Prop where
  lists : ∀ thread, s.links.flink (.irpList thread) = .irpList thread ∧ s.links.blink (.irpList thread) = .irpList thread
  irps : ∀ address, s.irps address = none

/-- Every thread has its requests in its list, and the blocks of the heap in use are those that were there, the requests
with their buffers, and those that are lost. -/
structure Accounted {H : Type} (K : Ex.KernelHeap H) (base : Set Nat) (s : IrpState T H) (b : Books T) : Prop where
  lists : ∀ thread, Ring s.links (.irpList thread) (entriesOf b.outstanding thread)
  irps : ∀ address q, s.irps address = some q ↔ (address, q) ∈ b.outstanding
  releases : ∀ p ∈ b.outstanding, p.2.irp.flags.deallocateBuffer = true
  distinct : (blocksOf b.outstanding ++ b.lost).Nodup
  others : ∀ block ∈ blocksOf b.outstanding ++ b.lost, block ∉ base
  live : K.live s.heap = base ∪ {block | block ∈ blocksOf b.outstanding ++ b.lost}

end books

section blocks

variable {T H : Type} {K : Ex.KernelHeap H} {ps qs : List (Nat × QueuedIrp T)} {address : Nat} {q : QueuedIrp T}

theorem blocksOf_append : blocksOf (ps ++ qs) = blocksOf ps ++ blocksOf qs := List.flatMap_append

theorem irp_mem_blocks {p : Nat × QueuedIrp T} (listed : p ∈ ps) : p.1 ∈ blocksOf ps :=
  List.mem_flatMap.mpr ⟨p, listed, List.mem_cons_self⟩

/-- The blocks of one request stand beside all others. -/
theorem blocks_perm {lost : List Nat} : (blocksOf (ps ++ (address, q) :: qs) ++ lost).Perm
    ((address :: q.block.toList) ++ (blocksOf (ps ++ qs) ++ lost)) := by
  have front := (List.perm_append_comm_assoc (blocksOf ps) (address :: q.block.toList) (blocksOf qs)).append_right lost
  rw [List.append_assoc (address :: q.block.toList), ← blocksOf_append] at front
  unfold blocksOf at front ⊢
  rw [List.flatMap_append, List.flatMap_cons]
  exact front

theorem allocateBuffer_live {buffer : Allocation} {mapped : Bool} {heap heap' : H} {block : Option Nat}
    (run : allocateBuffer K buffer mapped heap = some (block, heap')) :
    (∀ x ∈ block.toList, x ∉ K.live heap) ∧ ∀ x, x ∈ K.live heap' ↔ x ∈ K.live heap ∨ x ∈ block.toList := by
  unfold allocateBuffer at run
  split at run
  · obtain ⟨⟨a, h⟩, allocated, same⟩ := Option.map_eq_some_iff.mp run
    cases same
    refine ⟨?_, fun x => ?_⟩
    · intro x member
      cases Option.mem_toList.mp member
      exact K.fresh allocated
    · rw [K.allocated allocated, Set.mem_insert_iff, or_comm]
      simp [eq_comm]
  · split at run
    · cases run
      exact ⟨fun x member => absurd member List.not_mem_nil, fun x => (or_iff_left List.not_mem_nil).symm⟩
    · cases run

theorem completed_releases {irp : Irp} {memory systemBuffer : Buffer} {c : Completed}
    (releases : irp.flags.deallocateBuffer = true) (run : ioCompleteRequest irp memory systemBuffer = some c) :
    ∃ buffer, c.released =
      [if irp.bufferLength < pageSize then .exFreeHeap buffer else .mmFreeMemory buffer irp.bufferLength] := by
  cases held : irp.systemBuffer with
  | none =>
    rw [ioCompleteRequest_missing held releases] at run
    cases run
  | some buffer =>
    unfold ioCompleteRequest at run
    split at run
    · cases run
    · split at run
      · cases run
      · rw [held] at run
        cases run
        exact ⟨buffer, rfl⟩

/-- The buffer goes back to the heap unless it is lost. -/
theorem releaseBuffer_live {heap : H} {buffer : Allocation} (inUse : ∀ x ∈ q.block.toList, x ∈ K.live heap) (x : Nat) :
    x ∈ K.live ([if q.irp.bufferLength < pageSize then Release.exFreeHeap buffer
        else .mmFreeMemory buffer q.irp.bufferLength].foldl (releaseBuffer K q.block) heap) ↔
      x ∈ K.live heap ∧ (x ∈ q.block.toList → x ∈ q.lost) := by
  rw [List.foldl_cons, List.foldl_nil]
  unfold QueuedIrp.lost
  by_cases short : q.irp.bufferLength < pageSize
  · rw [if_pos short, if_pos short]
    unfold releaseBuffer
    dsimp only
    cases held : q.block with
    | none => simp
    | some block =>
      rw [held] at inUse
      rw [Option.elim_some, K.freed (inUse block (by simp))]
      simp
  · rw [if_neg short, if_neg short]
    exact (and_iff_left id).symm

theorem control_flags {r : ControlRequest} {irp : Irp} {input : Buffer}
    (run : ioBuildDeviceIoControlRequest r = some (irp, input)) :
    irp.flags.deallocateBuffer = true ∧ irp.flags.inputOperation = true := by
  obtain ⟨_, -, rest⟩ := Option.bind_eq_some_iff.mp run
  split at rest
  · cases rest
  · cases rest
    exact ⟨rfl, rfl⟩

theorem lost_sublist (q : QueuedIrp T) : q.lost.Sublist q.block.toList := by
  unfold QueuedIrp.lost
  split
  · exact List.nil_sublist _
  · exact List.Sublist.refl _

theorem mem_remaining {p : Nat × QueuedIrp T} (alone : ∀ p ∈ ps ++ qs, p.1 ≠ address) :
    p ∈ ps ++ qs ↔ p ∈ ps ++ (address, q) :: qs ∧ p.1 ≠ address := by
  constructor
  · intro member
    refine ⟨?_, alone p member⟩
    rcases List.mem_append.mp member with front | back
    · exact List.mem_append_left _ front
    · exact List.mem_append_right _ (List.mem_cons_of_mem _ back)
  · rintro ⟨member, other⟩
    rcases List.mem_append.mp member with front | middle
    · exact List.mem_append_left _ front
    · rcases List.mem_cons.mp middle with rfl | back
      · exact absurd rfl other
      · exact List.mem_append_right _ back

theorem after_completed {lost : List Nat} (alone : ∀ p ∈ ps ++ qs, p.1 ≠ address) :
    Books.after ⟨ps ++ (address, q) :: qs, lost⟩ (.completed address) = ⟨ps ++ qs, lost ++ q.lost⟩ := by
  have others : (ps ++ (address, q) :: qs).filter (fun p => p.1 ≠ address) = ps ++ qs := by
    rw [List.filter_append, List.filter_cons_of_neg (by simp), ← List.filter_append]
    exact List.filter_eq_self.mpr fun p member => decide_eq_true (alone p member)
  have front : ps.filter (fun p => p.1 = address) = [] :=
    List.filter_eq_nil_iff.mpr fun p member => by simpa using alone p (List.mem_append_left _ member)
  have back : qs.filter (fun p => p.1 = address) = [] :=
    List.filter_eq_nil_iff.mpr fun p member => by simpa using alone p (List.mem_append_right _ member)
  have one : (ps ++ (address, q) :: qs).filter (fun p => p.1 = address) = [(address, q)] := by
    rw [List.filter_append, List.filter_cons_of_pos (by simp), front, back, List.nil_append]
  unfold Books.after
  dsimp only
  rw [others, one, List.flatMap_singleton]

theorem empty_lossless : (Books.empty : Books T).Lossless := ⟨rfl, fun _ member => absurd member List.not_mem_nil⟩

theorem Books.Lossless.after {b : Books T} (lossless : b.Lossless) {call : IrpCall T}
    (kept : ∀ address q, call = .built address q → q.lost = []) : (b.after call).Lossless := by
  cases call with
  | built address q =>
    refine ⟨lossless.lost, fun p member => ?_⟩
    rcases List.mem_append.mp member with old | added
    · exact lossless.outstanding p old
    · rw [List.mem_singleton.mp added]
      exact kept address q rfl
  | refused => exact lossless
  | completed address =>
    constructor
    · refine List.append_eq_nil_iff.mpr ⟨lossless.lost, List.flatMap_eq_nil_iff.mpr fun p member => ?_⟩
      exact lossless.outstanding p (List.mem_filter.mp member).1
    · exact fun p member => lossless.outstanding p (List.mem_filter.mp member).1

end blocks

section lists

variable {T : Type} [DecidableEq T] {ps qs : List (Nat × QueuedIrp T)} {l : Links (IrpEntry T)} {address : Nat}
  {q : QueuedIrp T} {thread other : T}

theorem entriesOf_append : entriesOf (ps ++ qs) thread = entriesOf ps thread ++ entriesOf qs thread := by
  unfold entriesOf
  rw [List.filter_append, List.map_append]

theorem entriesOf_own : entriesOf ((address, q) :: ps) q.callerThread =
    .threadListEntry address :: entriesOf ps q.callerThread := by
  simp [entriesOf]

theorem entriesOf_other (differs : q.callerThread ≠ thread) :
    entriesOf ((address, q) :: ps) thread = entriesOf ps thread := by
  simp [entriesOf, differs]

theorem mem_list {x : IrpEntry T} : x ∈ .irpList thread :: entriesOf ps thread ↔
    x = .irpList thread ∨ ∃ p ∈ ps, p.2.callerThread = thread ∧ x = .threadListEntry p.1 := by
  unfold entriesOf
  rw [mem_entries]
  simp only [List.mem_filter, decide_eq_true_eq, and_assoc]

theorem away_list (fresh : ∀ p ∈ ps, p.1 ≠ address) :
    IrpEntry.threadListEntry address ∉ .irpList thread :: entriesOf ps thread := by
  intro member
  obtain same | ⟨p, listed, -, same⟩ := mem_list.mp member
  · cases same
  · injection same with same
    exact fresh p listed same.symm

/-- A request is in the list of one thread. -/
theorem lists_apart (unique : ∀ p ∈ ps, ∀ q ∈ ps, p.1 = q.1 → p = q) (differs : thread ≠ other) :
    ∀ x ∈ IrpEntry.irpList other :: entriesOf ps other, x ∉ .irpList thread :: entriesOf ps thread := by
  intro x here there
  obtain rfl | ⟨p, listed, own, rfl⟩ := mem_list.mp here
  · obtain same | ⟨_, -, -, same⟩ := mem_list.mp there
    · injection same with same
      exact differs same.symm
    · cases same
  · obtain same | ⟨p', listed', own', same⟩ := mem_list.mp there
    · cases same
    · injection same with same
      cases unique p listed p' listed' same
      exact differs (own'.symm.trans own)

theorem ring_initializeListHead {head e : IrpEntry T} {xs : List (IrpEntry T)} (ring : Ring l head xs)
    (away : e ∉ head :: xs) : Ring (initializeListHead l e) head xs := by
  refine ring_congr ?_ ?_ ring
  · intro x member
    have other : x ≠ e := fun same => away (same ▸ member)
    simp [initializeListHead, other]
  · intro x member
    have other : x ≠ e := fun same => away (same ▸ member)
    simp [initializeListHead, other]

theorem queue_lists (lists : ∀ thread, Ring l (.irpList thread) (entriesOf ps thread))
    (unique : ∀ p ∈ ps, ∀ q ∈ ps, p.1 = q.1 → p = q) (fresh : ∀ p ∈ ps, p.1 ≠ address) (thread : T) :
    Ring (iopQueueThreadIrp l q.callerThread address) (.irpList thread) (entriesOf (ps ++ [(address, q)]) thread) := by
  have ready : ∀ thread, Ring (initializeListHead l (.threadListEntry address)) (.irpList thread)
      (entriesOf ps thread) := fun thread => ring_initializeListHead (lists thread) (away_list fresh)
  unfold iopQueueThreadIrp
  rw [insertTailList_eq, entriesOf_append]
  by_cases own : q.callerThread = thread
  · subst own
    rw [entriesOf_own]
    exact ring_insertTail (ready _) (away_list fresh)
  · rw [entriesOf_other own, show entriesOf [] thread = [] from rfl, List.append_nil]
    exact ring_insertBefore_frame (ready _) (ready _) (lists_apart unique own) (away_list fresh)

theorem dequeue_lists (lists : ∀ thread, Ring l (.irpList thread) (entriesOf (ps ++ (address, q) :: qs) thread))
    (unique : ∀ p ∈ ps ++ (address, q) :: qs, ∀ r ∈ ps ++ (address, q) :: qs, p.1 = r.1 → p = r)
    (fresh : ∀ p ∈ ps ++ qs, p.1 ≠ address) (thread : T) :
    Ring (iopDequeueThreadIrp l address) (.irpList thread) (entriesOf (ps ++ qs) thread) := by
  have ownList : entriesOf (ps ++ (address, q) :: qs) q.callerThread =
      entriesOf ps q.callerThread ++ .threadListEntry address :: entriesOf qs q.callerThread := by
    rw [entriesOf_append, entriesOf_own]
  have source := lists q.callerThread
  rw [ownList] at source
  refine ring_initializeListHead ?_ (away_list fresh)
  rw [removeEntryList_eq]
  by_cases own : q.callerThread = thread
  · subst own
    rw [entriesOf_append]
    exact ring_unlink source
  · have otherList : entriesOf (ps ++ (address, q) :: qs) thread = entriesOf (ps ++ qs) thread := by
      rw [entriesOf_append, entriesOf_other own, entriesOf_append]
    have frame := lists_apart unique own
    have kept := lists thread
    rw [ownList, otherList] at frame
    rw [otherList] at kept
    exact ring_unlink_frame source (List.mem_append_right _ List.mem_cons_self) kept frame

end lists

section accounts

variable {T H : Type} [DecidableEq T] {K : Ex.KernelHeap H} {base : Set Nat} {s t : IrpState T H} {b : Books T}
  {address : Nat} {q : QueuedIrp T}

theorem Accounted.unique (acc : Accounted K base s b) : ∀ p ∈ b.outstanding, ∀ q ∈ b.outstanding, p.1 = q.1 → p = q := by
  rintro ⟨address, p⟩ first ⟨address', q⟩ second same
  dsimp only at same
  subst same
  have answer := ((acc.irps address p).mpr first).symm.trans ((acc.irps address q).mpr second)
  injection answer with answer
  rw [answer]

/-- The blocks that are in use belong to what was there, or to a request. -/
theorem Accounted.used (acc : Accounted K base s b) {block : Nat} : block ∈ K.live s.heap ↔
    block ∈ base ∨ block ∈ blocksOf b.outstanding ++ b.lost := by
  rw [acc.live]
  rfl

/-- A request with new blocks is queued. -/
theorem Accounted.queue {heap : H} (acc : Accounted K base s b)
    (fresh : ∀ x ∈ address :: q.block.toList, x ∉ K.live s.heap) (once : (address :: q.block.toList).Nodup)
    (live : ∀ x, x ∈ K.live heap ↔ x ∈ K.live s.heap ∨ x ∈ address :: q.block.toList)
    (releases : q.irp.flags.deallocateBuffer = true) :
    Accounted K base (s.queue address q heap) (b.after (.built address q)) := by
  have new : ∀ p ∈ b.outstanding, p.1 ≠ address := by
    rintro p listed rfl
    exact fresh _ List.mem_cons_self (acc.used.mpr (.inr (List.mem_append_left _ (irp_mem_blocks listed))))
  have order := @blocks_perm T b.outstanding [] address q b.lost
  rw [List.append_nil] at order
  constructor
  · exact queue_lists acc.lists acc.unique new
  · intro a r
    show Function.update s.irps address (some q) a = some r ↔ (a, r) ∈ b.outstanding ++ [(address, q)]
    rw [List.mem_append, List.mem_singleton]
    by_cases same : a = address
    · subst same
      rw [Function.update_self, or_iff_right fun old => new _ old rfl, Prod.mk_inj, and_iff_right rfl, Option.some_inj,
        eq_comm]
    · rw [Function.update_of_ne same, acc.irps a r, or_iff_left fun added => same (congrArg Prod.fst added)]
  · intro p member
    rcases List.mem_append.mp member with old | added
    · exact acc.releases p old
    · rw [List.mem_singleton.mp added]
      exact releases
  · refine order.nodup_iff.mpr (List.nodup_append.mpr ⟨once, acc.distinct, ?_⟩)
    rintro x mine y others rfl
    exact fresh x mine (acc.used.mpr (.inr others))
  · intro x member
    rcases List.mem_append.mp (order.mem_iff.mp member) with mine | others
    · exact fun before => fresh x mine (acc.used.mpr (.inl before))
    · exact acc.others x others
  · ext x
    show x ∈ K.live heap ↔ x ∈ base ∨ x ∈ blocksOf (b.outstanding ++ [(address, q)]) ++ b.lost
    rw [live, acc.used, order.mem_iff, List.mem_append (s := address :: q.block.toList), or_assoc,
      or_comm (a := x ∈ blocksOf b.outstanding ++ b.lost)]

theorem allocated_live {heap heap' : H} {size : BitVec 32} (run : K.exAllocateHeap heap size = some (address, heap'))
    (x : Nat) : x ∈ K.live heap' ↔ x ∈ K.live heap ∨ x = address := by
  rw [K.allocated run, Set.mem_insert_iff, or_comm]

/-- A request is built with its buffer, or without one. -/
theorem Accounted.build {heap heap' : H} {size : BitVec 32} (acc : Accounted K base s b)
    (irp : K.exAllocateHeap s.heap size = some (address, heap)) (apart : ∀ x ∈ q.block.toList, x ∉ K.live heap)
    (live : ∀ x, x ∈ K.live heap' ↔ x ∈ K.live heap ∨ x ∈ q.block.toList)
    (releases : q.irp.flags.deallocateBuffer = true) :
    Accounted K base (s.queue address q heap') (b.after (.built address q)) := by
  refine acc.queue ?_ ?_ ?_ releases
  · intro x member
    rcases List.mem_cons.mp member with rfl | buffer
    · exact K.fresh irp
    · exact fun before => apart x buffer ((allocated_live irp x).mpr (.inl before))
  · refine List.nodup_cons.mpr ⟨fun buffer => apart address buffer ((allocated_live irp address).mpr (.inr rfl)), ?_⟩
    cases q.block with
    | none => exact List.nodup_nil
    | some block => exact List.nodup_singleton block
  · intro x
    rw [live, allocated_live irp, List.mem_cons, or_assoc]

/-- A request that gets no buffer is given back. -/
theorem Accounted.refuse {heap : H} {size : BitVec 32} (acc : Accounted K base s b)
    (irp : K.exAllocateHeap s.heap size = some (address, heap)) :
    Accounted K base { s with heap := K.exFreeHeap heap address } b where
  lists := acc.lists
  irps := acc.irps
  releases := acc.releases
  distinct := acc.distinct
  others := acc.others
  live := by
    have inUse : address ∈ K.live heap := (allocated_live irp address).mpr (.inr rfl)
    show K.live (K.exFreeHeap heap address) = _
    rw [K.freed inUse, K.allocated irp, Set.insert_sdiff_self_of_notMem (K.fresh irp)]
    exact acc.live

/-- No other request is where a request is, and no buffer. -/
theorem Accounted.alone {ps qs : List (Nat × QueuedIrp T)} {lost : List Nat}
    (acc : Accounted K base s ⟨ps ++ (address, q) :: qs, lost⟩) : ∀ p ∈ ps ++ qs, p.1 ≠ address := by
  obtain ⟨-, -, apart⟩ := List.nodup_append.mp (blocks_perm.nodup_iff.mp acc.distinct)
  intro p listed same
  exact apart address List.mem_cons_self p.1 (List.mem_append_left _ (irp_mem_blocks listed)) same.symm

theorem Accounted.complete {heap : H} {ps qs : List (Nat × QueuedIrp T)} {lost : List Nat}
    (acc : Accounted K base s ⟨ps ++ (address, q) :: qs, lost⟩)
    (live : ∀ x, x ∈ K.live heap ↔ (x ∈ K.live s.heap ∧ (x ∈ q.block.toList → x ∈ q.lost)) ∧ x ≠ address) :
    Accounted K base { links := iopDequeueThreadIrp s.links address, irps := Function.update s.irps address none, heap }
      ⟨ps ++ qs, lost ++ q.lost⟩ := by
  have order := @blocks_perm T ps qs address q lost
  obtain ⟨once, rest, apart⟩ := List.nodup_append.mp (order.nodup_iff.mp acc.distinct)
  have after : (blocksOf (ps ++ qs) ++ (lost ++ q.lost)).Perm (q.lost ++ (blocksOf (ps ++ qs) ++ lost)) := by
    rw [← List.append_assoc]
    exact List.perm_append_comm
  have kept : q.lost.Sublist (address :: q.block.toList) := (lost_sublist q).cons address
  constructor
  · exact dequeue_lists acc.lists acc.unique acc.alone
  · intro a r
    show Function.update s.irps address none a = some r ↔ (a, r) ∈ ps ++ qs
    rw [mem_remaining (q := q) acc.alone]
    by_cases same : a = address
    · subst same
      rw [Function.update_self]
      exact iff_of_false (fun none => by cases none) fun left => left.2 rfl
    · rw [Function.update_of_ne same, acc.irps a r]
      exact (and_iff_left same).symm
  · exact fun p member => acc.releases p ((mem_remaining acc.alone).mp member).1
  · exact after.nodup_iff.mpr ((kept.append_right _).nodup (List.nodup_append.mpr ⟨once, rest, apart⟩))
  · intro x member
    exact acc.others x (order.mem_iff.mpr ((kept.append_right _).subset (after.mem_iff.mp member)))
  · ext x
    show x ∈ K.live heap ↔ x ∈ base ∨ x ∈ blocksOf (ps ++ qs) ++ (lost ++ q.lost)
    have outside : x ∈ address :: q.block.toList → x ∉ blocksOf (ps ++ qs) ++ lost :=
      fun mine other => apart x mine x other rfl
    have own : x ∈ q.block.toList → x ≠ address := by
      rintro buffer rfl
      exact (List.nodup_cons.mp once).1 buffer
    have buffer : x ∈ q.lost → x ∈ q.block.toList := fun member => (lost_sublist q).subset member
    have before := acc.others x
    have used : x ∈ K.live s.heap ↔ _ := acc.used
    rw [order.mem_iff, List.mem_append] at before used
    rw [live, used, after.mem_iff, List.mem_append (s := q.lost)]
    rw [List.mem_cons] at before outside ⊢
    constructor
    · rintro ⟨⟨there | (rfl | mine) | rest, keeps⟩, other⟩
      · exact .inl there
      · exact absurd rfl other
      · exact .inr (.inl (keeps mine))
      · exact .inr (.inr rest)
    · rintro (there | given | rest)
      · exact ⟨⟨.inl there, fun mine => absurd there (before (.inl (.inr mine)))⟩,
          fun same => before (.inl (.inl same)) there⟩
      · exact ⟨⟨.inr (.inl (.inr (buffer given))), fun _ => given⟩, own (buffer given)⟩
      · exact ⟨⟨.inr (.inr rest), fun mine => absurd rest (outside (.inr mine))⟩,
          fun same => outside (.inl same) rest⟩

theorem ioCompleteRequest_accounted {ioStatus : IoStatusBlock} {memory systemBuffer : Buffer} {c : Completed}
    (acc : Accounted K base s b) (run : s.ioCompleteRequest K address ioStatus memory systemBuffer = some (c, t)) :
    Accounted K base t (b.after (.completed address)) := by
  obtain ⟨q, here, rest⟩ := Option.bind_eq_some_iff.mp run
  obtain ⟨c, completed, same⟩ := Option.map_eq_some_iff.mp rest
  cases same
  have listed := (acc.irps address q).mp here
  have releases : ({ q.irp with ioStatus } : Irp).flags.deallocateBuffer = true := acc.releases _ listed
  obtain ⟨buffer, released⟩ := completed_releases releases completed
  obtain ⟨outstanding, lost⟩ := b
  obtain ⟨ps, qs, rfl⟩ : ∃ ps qs, outstanding = ps ++ (address, q) :: qs := List.append_of_mem listed
  have used : ∀ x ∈ address :: q.block.toList, x ∈ K.live s.heap := fun x mine =>
    acc.used.mpr (.inr (blocks_perm.mem_iff.mpr (List.mem_append_left _ mine)))
  obtain ⟨once, -, -⟩ := List.nodup_append.mp (blocks_perm.nodup_iff.mp acc.distinct)
  have given := @releaseBuffer_live T H K q s.heap buffer fun x mine => used x (List.mem_cons_of_mem _ mine)
  rw [after_completed acc.alone]
  refine acc.complete fun x => ?_
  rw [released]
  have held : address ∈ q.block.toList → address ∈ q.lost := fun mine => absurd mine (List.nodup_cons.mp once).1
  rw [K.freed ((given address).mpr ⟨used address List.mem_cons_self, held⟩), Set.mem_sdiff, Set.mem_singleton_iff]
  exact and_congr_left' (given x)

/-- Whatever happens to a request, the books tell of it. -/
theorem irpStep_accounted {sizeofIrp sizeofIrpStackLocation : BitVec 32} {call : IrpCall T} (acc : Accounted K base s b)
    (step : IrpStep K sizeofIrp sizeofIrpStackLocation s call t) : Accounted K base t (b.after call) := by
  cases step with
  | device run =>
    obtain ⟨⟨address, heap⟩, irp, rest⟩ := Option.bind_eq_some_iff.mp run
    dsimp only at rest
    split at rest
    · cases rest
    · next buffer =>
      obtain ⟨irp', built, same⟩ := Option.map_eq_some_iff.mp rest
      cases same
      cases built
      obtain ⟨apart, live⟩ := allocateBuffer_live buffer
      exact acc.build irp apart live rfl
  | refused run =>
    obtain ⟨⟨address, heap⟩, irp, rest⟩ := Option.bind_eq_some_iff.mp run
    dsimp only at rest
    split at rest
    · cases rest
      exact acc.refuse irp
    · obtain ⟨_, _, same⟩ := Option.map_eq_some_iff.mp rest
      cases same
  | @control _ thread r _ _ run =>
    obtain ⟨⟨address, heap⟩, irp, rest⟩ := Option.bind_eq_some_iff.mp run
    obtain ⟨⟨irp', input⟩, built, same⟩ := Option.map_eq_some_iff.mp rest
    have releases : irp'.flags.deallocateBuffer = true := (control_flags built).1
    cases same
    cases buffer : K.exAllocateHeap heap r.heapBuffer.size with
    | none =>
      exact acc.build irp (fun _ member => absurd member List.not_mem_nil)
        (fun _ => (or_iff_left List.not_mem_nil).symm) releases
    | some allocated =>
      refine acc.build irp ?_ ?_ releases
      · intro x member
        cases Option.mem_toList.mp member
        exact K.fresh buffer
      · intro x
        exact (allocated_live buffer x).trans (or_congr_right List.mem_singleton.symm)
  | complete run => exact ioCompleteRequest_accounted acc run

theorem run_accounted {sizeofIrp sizeofIrpStackLocation : BitVec 32} {calls : List (IrpCall T)}
    (acc : Accounted K base s b) (run : Run (IrpStep K sizeofIrp sizeofIrpStackLocation) s calls t) :
    Accounted K base t (calls.foldl Books.after b) := by
  induction run generalizing b with
  | done s => exact acc
  | next first _ ih => exact ih (irpStep_accounted acc first)

theorem union_nothing (base : Set Nat) : base ∪ {block | block ∈ ([] : List Nat)} = base := by
  ext x
  exact or_iff_left List.not_mem_nil

theorem Idle.accounted (idle : Idle s) : Accounted K (K.live s.heap) s Books.empty where
  lists thread := ring_nil (idle.lists thread).1 (idle.lists thread).2
  irps address q := by
    rw [idle.irps address]
    exact iff_of_false nofun List.not_mem_nil
  releases _ member := absurd member List.not_mem_nil
  distinct := List.nodup_nil
  others _ member := absurd member List.not_mem_nil
  live := (union_nothing _).symm

/-- A buffer that is mapped holds no block, and a shorter one is freed. -/
theorem irpStep_keeps {sizeofIrp sizeofIrpStackLocation : BitVec 32}
    (step : IrpStep K sizeofIrp sizeofIrpStackLocation s (.built address q) t)
    (short : q.irp.flags.inputOperation = true → q.irp.bufferLength < pageSize) : q.lost = [] := by
  cases step with
  | @device _ thread r _ _ run =>
    obtain ⟨⟨_, heap⟩, -, rest⟩ := Option.bind_eq_some_iff.mp run
    dsimp only at rest
    split at rest
    · cases rest
    · next buffer =>
      obtain ⟨irp', built, same⟩ := Option.map_eq_some_iff.mp rest
      cases same
      cases built
      unfold QueuedIrp.lost
      split
      · rfl
      · next long =>
        have mapped : ¬r.bufferSize < pageSize := long
        rw [if_neg mapped] at buffer
        unfold allocateBuffer at buffer
        dsimp only at buffer
        split at buffer
        · cases buffer
          rfl
        · cases buffer
  | control run =>
    obtain ⟨⟨_, heap⟩, -, rest⟩ := Option.bind_eq_some_iff.mp run
    obtain ⟨⟨irp', input⟩, built, same⟩ := Option.map_eq_some_iff.mp rest
    have reads : irp'.flags.inputOperation = true := (control_flags built).2
    cases same
    exact if_pos (short reads)

theorem run_lossless {sizeofIrp sizeofIrpStackLocation : BitVec 32} {calls : List (IrpCall T)} (lossless : b.Lossless)
    (run : Run (IrpStep K sizeofIrp sizeofIrpStackLocation) s calls t)
    (short : ∀ address q, .built address q ∈ calls → q.irp.flags.inputOperation = true →
      q.irp.bufferLength < pageSize) : (calls.foldl Books.after b).Lossless := by
  induction run generalizing b with
  | done s => exact lossless
  | next first _ ih =>
    refine ih (lossless.after ?_) fun address q member => short address q (List.mem_cons_of_mem _ member)
    rintro address q rfl
    exact irpStep_keeps first (short address q List.mem_cons_self)

end accounts

/-! Two threads that read from a device whose stack has two levels. -/

theorem no_block : ∀ a ∈ ([] : List Nat), a < 1 := fun _ member => absurd member List.not_mem_nil

def noRequests : IrpState Bool Ex.Bump where
  links := ⟨id, id⟩
  irps _ := none
  heap := ⟨1, [], no_block⟩

theorem noRequests_idle : Idle noRequests where
  lists _ := ⟨rfl, rfl⟩
  irps _ := rfl

theorem two_levels : (2 : BitVec 8) ≠ 0 := by decide

def readRequest : DeviceRequest where
  stackSize := ⟨2, two_levels⟩
  majorFunction := 1
  buffer := 0x8000
  bufferSize := 512
  irpAllocated := true
  bufferAllocated := true

abbrev RequestStep : IrpState Bool Ex.Bump → IrpCall Bool → IrpState Bool Ex.Bump → Prop :=
  IrpStep (Ex.bumpHeap 4096) 96 20

theorem twoThreads_run : ∃ q r t, Run RequestStep noRequests [.built 1 q, .built 3 r, .completed 1, .completed 3] t ∧
    q.callerThread = false ∧ r.callerThread = true ∧ q.irp.flags.inputOperation = false ∧
      r.irp.flags.inputOperation = false :=
  ⟨_, _, _,
    .next (.device (show noRequests.ioBuildDeviceRequest _ _ _ false readRequest = some (some (1, _), _) from rfl))
      (.next (.device (show IrpState.ioBuildDeviceRequest _ _ _ _ true readRequest = some (some (3, _), _) from rfl))
        (.next (.complete (show IrpState.ioCompleteRequest _ _ 1 ⟨0, 0⟩ (fun _ => 0) (fun _ => 0) = some _ from rfl))
          (.next (.complete (show IrpState.ioCompleteRequest _ _ 3 ⟨0, 0⟩ (fun _ => 0) (fun _ => 0) = some _ from rfl))
            (.done _)))), rfl, rfl, rfl, rfl⟩

end Gr8os.Io.ThreadIrps
