import Gr8os.Ex.HeapRuns

/-! What every run of the heap keeps: its blocks and lists, and that no check of a block fails. -/
namespace Gr8os.Ex

open Intrusive Ke Bytes Tiling Runs

/-- The blocks fill the arena, in memory order, and each is on the list of its type. -/
structure WellFormed (s : Heap) (cells : List Cell) : Prop where
  tiled : Tiles Cell.address Cell.stop expHeapArea cells expHeapEnd
  header : ∀ c ∈ cells, s.block c.address = some c.block
  type : ∀ c ∈ cells, c.block.blockType = heapBlockFree ∨ c.block.blockType = heapBlockAllocated ∨
    c.block.blockType = heapBlockLocked
  order : Ring s.memoryOrderList expMemoryOrderBlockList (cells.map Cell.address)
  listed : Listed s.list (FreeAt cells) (BusyAt cells)
  merged : Merged cells

/-- A heap in order, which is one free block when nobody holds a block. -/
def Tidy (s : HeapState) : Prop := ∃ cells, WellFormed s.heap cells ∧
  ((∀ ptr, s.held ptr = none) → ∃ c, cells = [c] ∧ c.isFree ∧
    c.block.size = BitVec.ofNat 32 ((expHeapSize - 32) / 16))

/-- Each block passes the check, and no padding covers a byte that a client requested. -/
def Intact (s : HeapState) : Prop := ∃ blocks, Ring s.heap.memoryOrderList expMemoryOrderBlockList blocks ∧
  (∀ a ∈ blocks, expCheckBlockValid s.heap a = true) ∧
  ∀ ptr g, s.held ptr = some g → ptr - 32 ∈ blocks ∧ ∃ b, s.heap.block (ptr - 32) = some b ∧
    g.size.toNat + b.paddingSize.toNat ≤ 16 * b.size.toNat

/-- The steps of clients that call with blocks they hold. -/
def LiveStep (headType : Heap → BitVec 8) (exactly : Bool) : HeapState → HeapCall → HeapState → Prop :=
  Guarded (Live exactly) fun s call t => s.call headType call = some t

/-- The steps of careful clients. -/
def CarefulStep (headType : Heap → BitVec 8) (exactly : Bool) : HeapState → HeapCall → HeapState → Prop :=
  Guarded (fun s call => Live exactly s call ∧ Careful headType exactly s call)
    fun s call t => s.call headType call = some t

section runs

variable {headType : Heap → BitVec 8} {exactly : Bool} {s t : HeapState} {cells : List Cell} {calls : List HeapCall}

theorem CellOk.type {padded : Prop} {heap : Heap} {c : Cell} (ok : CellOk padded heap c) :
    c.block.blockType = heapBlockFree ∨ c.block.blockType = heapBlockAllocated ∨ c.block.blockType = heapBlockLocked := by
  rcases ok.kind with ⟨free, _⟩ | ⟨busy, _⟩
  · exact .inl free
  · exact .inr busy

theorem one_block (ok : Sound (exactly = true) s.heap cells) (free : ∀ c ∈ cells, c.isFree) :
    ∃ c, cells = [c] ∧ c.isFree ∧ c.block.size = BitVec.ofNat 32 ((expHeapSize - 32) / 16) := by
  have tiled := ok.layout.tiled
  cases cells with
  | nil =>
    have empty : expHeapArea = expHeapEnd := tiled
    exact absurd empty (by decide)
  | cons c rest =>
    have cFree := free c List.mem_cons_self
    cases rest with
    | nil =>
      obtain ⟨begins, ends⟩ := tiled
      have stop : c.address + 32 + 16 * c.block.size.toNat = expHeapEnd := ends
      refine ⟨c, rfl, cFree, BitVec.eq_of_toNat_eq ?_⟩
      unfold expHeapEnd expHeapArea expHeapSize at *
      rw [BitVec.toNat_ofNat]
      omega
    | cons d rest =>
      have dFree := free d (List.mem_cons_of_mem _ List.mem_cons_self)
      have apart := (List.isChain_cons.mp ok.merged).1 d rfl
      exact absurd ⟨cFree, dFree⟩ apart

theorem Kept.tidy (kept : Kept exactly s cells) : Tidy s := by
  have layout := kept.sound.layout
  refine ⟨cells, ⟨layout.tiled, fun c member => (layout.cell c member).here,
    fun c member => (layout.cell c member).type, layout.order, layout.listed, kept.sound.merged⟩, fun nothing => ?_⟩
  apply one_block kept.sound
  intro c member
  by_contra busy
  obtain ⟨g, holds⟩ := kept.busy c ⟨member, busy⟩
  rw [nothing] at holds
  contradiction

theorem Kept.intact (kept : Kept true s cells) : Intact s := by
  have layout := kept.sound.layout
  refine ⟨_, layout.order, fun a member => ?_, fun ptr g holds => ?_⟩
  · obtain ⟨c, inside, rfl⟩ := List.mem_map.mp member
    exact (layout.cell c inside).valid (.inl rfl)
  · obtain ⟨c, member, _, rfl, cellOk, _, room⟩ := kept.grant holds
    rw [Nat.add_sub_cancel]
    exact ⟨List.mem_map_of_mem member, c.block, cellOk.here, room rfl⟩

variable (busyHead : ∀ s, headType s ≠ heapBlockFree)

include busyHead

theorem run_kept (kept : Kept exactly s cells) (run : Run (CarefulStep headType exactly) s calls t) :
    ∃ cells', Kept exactly t cells' := by
  refine run.invariant (I := fun s => ∃ cells, Kept exactly s cells) ?_ ⟨cells, kept⟩
  rintro s call t ⟨cells, kept⟩ ⟨⟨live, careful⟩, step⟩
  exact step_kept busyHead kept live careful step

end runs

/-- Zeros where the code reads a type for a list head. -/
def zeroHead : Heap → BitVec 8 := fun _ => 0

theorem zeroHead_busy : ∀ s, zeroHead s ≠ heapBlockFree := fun _ => (by decide : (0 : BitVec 8) ≠ heapBlockFree)

/-- The heap over zeroed memory. -/
def freshHeap : HeapState := .start (fun _ => 0) ⟨fun _ => 0, fun _ => 0⟩ 0x1234

/-- The data of the first block, and of the one behind 320 bytes. -/
def firstData : Nat := expHeapArea + 32

def secondData : Nat := expHeapArea + 384

/-- A block is split, locked, unlocked and moved, and another one freed. -/
def churn : List HeapCall :=
  [.allocate 320, .allocate 16, .realloc firstData 64, .write firstData 63 7, .lock secondData, .unlock secondData,
    .realloc firstData 300, .free secondData]

/-- Where careful clients write only the bytes they requested, no check of a block ever fails. -/
theorem heap_intact {headType : Heap → BitVec 8} {s : HeapState} {calls : List HeapCall}
    (busyHead : ∀ s, headType s ≠ heapBlockFree) (memory : Buffer) (links : Links Nat) (expHeapCookie : BitVec 16)
    (run : Run (CarefulStep headType true) (HeapState.start memory links expHeapCookie) calls s) :
    Intact s ∧ ∀ call, Live true s call → Careful headType true s call → ∃ t, s.call headType call = some t := by
  obtain ⟨cells, kept⟩ := run_kept busyHead (start_kept memory links expHeapCookie true) run
  exact ⟨kept.intact, fun call live careful => call_returns busyHead kept live careful⟩

theorem churn_intact : ∃ s, Run (CarefulStep zeroHead true) freshHeap churn s ∧ Intact s ∧
    ∃ t, s.call zeroHead (.allocate 1000) = some t := by
  have returns : (exec (guarded (fun s call => Live true s call ∧ Careful zeroHead true s call) fun s call =>
      s.call zeroHead call) freshHeap churn).isSome := by decide +kernel
  obtain ⟨s, runs⟩ := Option.isSome_iff_exists.mp returns
  obtain ⟨intact, next⟩ :=
    heap_intact zeroHead_busy (fun _ => 0) ⟨fun _ => 0, fun _ => 0⟩ 0x1234 (guarded_run runs)
  exact ⟨s, guarded_run runs, intact, next (.allocate 1000) trivial (.inl (by decide))⟩

/-- A block of 320 bytes in front of another one is cut to 287, and its client writes the last of them. -/
def cutByTwo : List HeapCall :=
  [.allocate 320, .allocate 16, .realloc firstData 287, .write firstData 286 0]

/-- The padding of the block is 255 bytes then, and the client cannot free it. -/
theorem cut_pads_data : ∃ s, Run (LiveStep zeroHead true) freshHeap cutByTwo s ∧ ¬Intact s ∧
    Live true s (.free firstData) ∧ s.call zeroHead (.free firstData) = none := by
  have returns : (exec (guarded (Live true) fun s call => s.call zeroHead call) freshHeap cutByTwo).map
      (fun s => decide (s.held firstData = some ⟨287, false⟩ ∧
        (s.heap.block expHeapArea).map (fun b => (b.size, b.paddingSize)) = some (20, 255) ∧
        (s.call zeroHead (.free firstData)).isNone)) = some true := by decide +kernel
  obtain ⟨s, runs, facts⟩ := Option.map_eq_some_iff.mp returns
  obtain ⟨holds, padded, stops⟩ := of_decide_eq_true facts
  refine ⟨s, guarded_run runs, ?_, ⟨_, holds, rfl⟩, Option.isNone_iff_eq_none.mp stops⟩
  rintro ⟨blocks, _, _, room⟩
  obtain ⟨_, b, here, clear⟩ := room firstData _ holds
  rw [show firstData - 32 = expHeapArea from rfl] at here
  rw [here, Option.map_some, Option.some.injEq, Prod.mk.injEq] at padded
  rw [padded.1, padded.2] at clear
  exact absurd clear (by decide)

end Gr8os.Ex
