import Gr8os.Ex.HeapRealloc
import Gr8os.Lib.Run
import Mathlib.Logic.Function.Basic

/-! Runs of the kernel heap: its clients allocate, resize, free and lock blocks and write to those they hold. -/
namespace Gr8os.Ex

open Intrusive Ke Bytes Tiling Runs

section lock

variable {padded : Prop} {s : Heap} {front back cells : List Cell} {c : Cell}

def Cell.typed (c : Cell) (blockType : BitVec 8) : Cell where
  address := c.address
  block := EheapBlock.recalculated { c.block with blockType := blockType } c.address

theorem typed_busy {blockType : BitVec 8} (inUse : blockType = heapBlockAllocated ∨ blockType = heapBlockLocked) :
    ¬(c.typed blockType).isFree := Cell.in_use inUse

theorem typed_sound (ok : Sound padded s (front ++ c :: back)) (busy : ¬c.isFree) {blockType : BitVec 8}
    (inUse : blockType = heapBlockAllocated ∨ blockType = heapBlockLocked) :
    Sound padded (s.setBlock c.address (c.typed blockType).block) (front ++ c.typed blockType :: back) := by
  have busy' := typed_busy (c := c) inUse
  have same := same_setBlock s c.address (c.typed blockType).block
  have cellOk : CellOk padded (s.setBlock c.address (c.typed blockType).block) (c.typed blockType) := by
    rcases ok.layout.ok.kind with ⟨free, _⟩ | ⟨_, inside, pattern⟩
    · exact absurd free busy
    · exact ⟨setBlock_self s c.address (c.typed blockType).block, rfl, ok.layout.ok.cookie, .inr ⟨inUse, inside, pattern⟩⟩
  have address : (c.typed blockType).address = c.address := rfl
  have stop : (c.typed blockType).stop = c.stop := rfl
  have wider := same.wider (Nat.le_refl c.address) (Nat.le_add_right (c.address + 32) (16 * c.block.size.toNat))
  have layout := ok.layout.swap address stop wider cellOk rfl (ok.layout.listed_busy address busy busy' rfl)
  exact ⟨layout, (merged_busy busy').mpr ((merged_busy busy).mp ok.merged)⟩

end lock

/-- What a client knows of a block that it holds: the bytes it requested, and whether it has locked the block. -/
structure Grant where
  size : BitVec 32
  locked : Bool
deriving DecidableEq, Repr

/-- The heap and what its clients hold. -/
structure HeapState where
  heap : Heap
  held : Nat → Option Grant

inductive HeapCall where
  | allocate (size : BitVec 32)
  | realloc (ptr : Nat) (newSize : BitVec 32)
  | free (ptr : Nat)
  | lock (ptr : Nat)
  | unlock (ptr : Nat)
  | write (ptr i : Nat) (value : BitVec 8)

/-- How long the block is whose data is at `ptr`. -/
def blockBytes (s : Heap) (ptr : Nat) : Nat := ((s.block (ptr - 32)).map fun b => 16 * b.size.toNat).getD 0

section calls

variable (headType : Heap → BitVec 8)

/-- A call that returns. -/
def HeapState.call (s : HeapState) : HeapCall → Option HeapState
  | .allocate size => (exAllocateHeap s.heap size).map fun r =>
    { heap := r.2
      held := match r.1 with
        | none => s.held
        | some ptr => Function.update s.held ptr (some ⟨size, false⟩) }
  | .realloc ptr newSize => (exReallocHeap headType s.heap ptr newSize).map fun r =>
    { heap := r.2
      held := match r.1 with
        | none => s.held
        | some new => Function.update (Function.update s.held ptr none) new (some ⟨newSize, false⟩) }
  | .free ptr => (exFreeHeap headType s.heap ptr).map fun heap => ⟨heap, Function.update s.held ptr none⟩
  | .lock ptr => (exLockHeapBlock s.heap ptr).map fun heap =>
    ⟨heap, Function.update s.held ptr ((s.held ptr).map fun g => { g with locked := true })⟩
  | .unlock ptr => (exUnlockHeapBlock s.heap ptr).map fun heap =>
    ⟨heap, Function.update s.held ptr ((s.held ptr).map fun g => { g with locked := false })⟩
  | .write ptr i value => some { s with heap := s.heap.memset (ptr + i) value 1 }

/-- The call is about a block that the client holds, and locks and unlocks alternate. A client writes only inside
the bytes it requested, or, when `exactly` is false, anywhere inside its block. -/
def Live (exactly : Bool) (s : HeapState) : HeapCall → Prop
  | .allocate _ => True
  | .realloc ptr _ | .free ptr | .lock ptr => ∃ g, s.held ptr = some g ∧ g.locked = false
  | .unlock ptr => ∃ g, s.held ptr = some g ∧ g.locked = true
  | .write ptr i _ => ∃ g, s.held ptr = some g ∧ i < if exactly then g.size.toNat else blockBytes s.heap ptr

/-- A resize for which the code does what it is to do. -/
structure Resizes (exactly : Bool) (s : Heap) (a : Nat) (b : EheapBlock) (newSize : BitVec 32) : Prop where
  grows : b.size < alignedUnits newSize → growsInPlace headType s a b (alignedUnits newSize) ≠ some true
  spares : exactly = true → alignedUnits newSize + 2 = b.size →
    typeAt headType s (s.memoryOrderList.flink a) ≠ some heapBlockFree →
    16 * (alignedUnits newSize).toNat ≤ newSize.toNat + b.paddingSize.toNat ∧
      2 * newSize.toNat + b.paddingSize.toNat ≤ 32 * (alignedUnits newSize).toNat + 32

/-- The sizes can be rounded up to units, and a block that is resized neither grows into the next one nor keeps two
units that its padding counts wrong. -/
def Careful (exactly : Bool) (s : HeapState) : HeapCall → Prop
  | .allocate size => size < 0xFFFFFFF1 ∨ isListEmpty s.heap.list expFreeBlockList = true
  | .realloc ptr newSize => newSize < 0xFFFFFFF1 ∧
    ∀ b, s.heap.block (ptr - 32) = some b → Resizes headType exactly s.heap (ptr - 32) b newSize
  | _ => True

instance (exactly : Bool) (s : HeapState) : (call : HeapCall) → Decidable (Live exactly s call)
  | .allocate _ => isTrue trivial
  | .realloc ptr _ | .free ptr | .lock ptr => inferInstanceAs (Decidable (∃ g ∈ s.held ptr, g.locked = false))
  | .unlock ptr => inferInstanceAs (Decidable (∃ g ∈ s.held ptr, g.locked = true))
  | .write ptr i _ => inferInstanceAs
    (Decidable (∃ g ∈ s.held ptr, i < if exactly then g.size.toNat else blockBytes s.heap ptr))

instance (exactly : Bool) (s : Heap) (a : Nat) (b : EheapBlock) (newSize : BitVec 32) :
    Decidable (Resizes headType exactly s a b newSize) :=
  decidable_of_iff (_ ∧ _) ⟨fun both => ⟨both.1, both.2⟩, fun resizes => ⟨resizes.grows, resizes.spares⟩⟩

instance (exactly : Bool) (s : HeapState) : (call : HeapCall) → Decidable (Careful headType exactly s call)
  | .allocate _ => inferInstanceAs (Decidable (_ ∨ _))
  | .realloc ptr newSize => inferInstanceAs (Decidable (_ ∧
    ∀ b ∈ s.heap.block (ptr - 32), Resizes headType exactly s.heap (ptr - 32) b newSize))
  | .free _ | .lock _ | .unlock _ | .write .. => isTrue trivial

end calls

/-- The blocks of the heap are those that the clients hold. -/
structure Kept (exactly : Bool) (s : HeapState) (cells : List Cell) : Prop where
  sound : Sound (exactly = true) s.heap cells
  held : ∀ ptr g, s.held ptr = some g → ∃ c, Busy cells c ∧ ptr = c.address + 32 ∧
    c.block.blockType = (if g.locked then heapBlockLocked else heapBlockAllocated) ∧
    (exactly = true → g.size.toNat + c.block.paddingSize.toNat ≤ 16 * c.block.size.toNat)
  busy : ∀ c, Busy cells c → ∃ g, s.held (c.address + 32) = some g

section kept

variable {exactly : Bool} {s : HeapState} {cells cells' : List Cell} {c c' : Cell} {heap : Heap}

theorem Sound.inj {padded : Prop} (ok : Sound padded heap cells) (one : c ∈ cells) (other : c' ∈ cells)
    (ne : c ≠ c') : c.address ≠ c'.address :=
  fun same => ne (tiles_inj cells_forward ok.layout.tiled one other same)

/-- A block makes way for another one, which a client holds. -/
theorem Kept.exchange (kept : Kept exactly s cells) (sound : Sound (exactly = true) heap cells') (member : c ∈ cells)
    (busy : ∀ e, Busy cells' e ↔ Busy cells e ∧ e ≠ c ∨ e = c') {g : Grant}
    (kind : c'.block.blockType = if g.locked then heapBlockLocked else heapBlockAllocated)
    (room : exactly = true → g.size.toNat + c'.block.paddingSize.toNat ≤ 16 * c'.block.size.toNat) :
    Kept exactly
      ⟨heap, Function.update (Function.update s.held (c.address + 32) none) (c'.address + 32) (some g)⟩ cells' := by
  have new := (busy c').mpr (.inr rfl)
  refine ⟨sound, fun ptr g' holds => ?_, fun e inUse => ?_⟩
  · simp only at holds
    by_cases atNew : ptr = c'.address + 32
    · subst atNew
      rw [Function.update_self] at holds
      obtain rfl := Option.some.inj holds
      exact ⟨c', new, rfl, kind, room⟩
    · rw [Function.update_of_ne atNew] at holds
      by_cases atOld : ptr = c.address + 32
      · subst atOld
        rw [Function.update_self] at holds
        contradiction
      · rw [Function.update_of_ne atOld] at holds
        obtain ⟨e, inUse, rfl, rest⟩ := kept.held ptr g' holds
        refine ⟨e, (busy e).mpr (.inl ⟨inUse, ?_⟩), rfl, rest⟩
        rintro rfl
        exact atOld rfl
  · simp only
    by_cases isNew : e = c'
    · exact ⟨g, by rw [isNew, Function.update_self]⟩
    · obtain ⟨old, ne⟩ := ((busy e).mp inUse).resolve_right isNew
      have apart := sound.inj inUse.1 new.1 isNew
      have apart' := kept.sound.inj old.1 member ne
      rw [Function.update_of_ne (by omega), Function.update_of_ne (by omega)]
      exact kept.busy e old

theorem Kept.release (kept : Kept exactly s cells) (sound : Sound (exactly = true) heap cells') (member : c ∈ cells)
    (busy : ∀ e, Busy cells' e ↔ Busy cells e ∧ e ≠ c) :
    Kept exactly ⟨heap, Function.update s.held (c.address + 32) none⟩ cells' := by
  refine ⟨sound, fun ptr g' holds => ?_, fun e inUse => ?_⟩
  · simp only at holds
    by_cases atOld : ptr = c.address + 32
    · subst atOld
      rw [Function.update_self] at holds
      contradiction
    · rw [Function.update_of_ne atOld] at holds
      obtain ⟨e, inUse, rfl, rest⟩ := kept.held ptr g' holds
      refine ⟨e, (busy e).mpr ⟨inUse, ?_⟩, rfl, rest⟩
      rintro rfl
      exact atOld rfl
  · obtain ⟨old, ne⟩ := (busy e).mp inUse
    have apart := kept.sound.inj old.1 member ne
    simp only
    rw [Function.update_of_ne (by omega)]
    exact kept.busy e old

theorem no_free {padded : Prop} (ok : Layout padded heap cells) (empty : isListEmpty heap.list expFreeBlockList = true) :
    ∀ d ∈ cells, ¬d.isFree := by
  obtain ⟨fs, bs, ring, _, inFree, _⟩ := ok.listed
  have none := (isListEmpty_iff ring).mp empty
  intro d member free
  have listed := (inFree d.address).mpr ⟨d, member, rfl, free⟩
  rw [none] at listed
  contradiction

theorem allocate_kept (headType : Heap → BitVec 8) (kept : Kept exactly s cells) {size : BitVec 32}
    (careful : Careful headType exactly s (.allocate size)) :
    ∃ t cells', s.call headType (.allocate size) = some t ∧ Kept exactly t cells' := by
  have nothing (runs : exAllocateHeap s.heap size = some (none, s.heap)) :
      ∃ t cells', s.call headType (.allocate size) = some t ∧ Kept exactly t cells' :=
    ⟨s, cells, congrArg (Option.map _) runs, kept⟩
  rcases careful with small | empty
  · rcases exAllocateHeap_spec kept.sound small with ⟨runs, _⟩ | ⟨c, heap, cells', c', runs, ideal, allocation⟩
    · exact nothing runs
    · have notBusy : ∀ e, Busy cells e → e ≠ c := by
        rintro e inUse rfl
        exact inUse.2 ideal.free
      have exchanged := kept.exchange (g := ⟨size, false⟩) allocation.sound ideal.member
        (fun e => (allocation.busy e).trans (or_congr_left (and_iff_left_of_imp (notBusy e)).symm)) allocation.kind
        fun _ => Nat.le_of_eq allocation.room
      rw [allocation.address, Function.update_idem] at exchanged
      exact ⟨_, cells', congrArg (Option.map _) runs, exchanged⟩
  · exact nothing (exAllocateHeap_full kept.sound (no_free kept.sound.layout empty))

theorem Kept.grant (kept : Kept exactly s cells) {ptr : Nat} {g : Grant} (holds : s.held ptr = some g) :
    ∃ c, c ∈ cells ∧ ¬c.isFree ∧ ptr = c.address + 32 ∧ CellOk (exactly = true) s.heap c ∧
      c.block.blockType = (if g.locked then heapBlockLocked else heapBlockAllocated) ∧
      (exactly = true → g.size.toNat + c.block.paddingSize.toNat ≤ 16 * c.block.size.toNat) := by
  obtain ⟨c, inUse, rfl, rest⟩ := kept.held ptr g holds
  exact ⟨c, inUse.1, inUse.2, rfl, kept.sound.layout.cell c inUse.1, rest⟩

theorem free_kept {headType : Heap → BitVec 8} (busyHead : ∀ s, headType s ≠ heapBlockFree) (kept : Kept exactly s cells)
    {ptr : Nat} (live : Live exactly s (.free ptr)) (valid : expCheckBlockValid s.heap (ptr - 32) = true) :
    ∃ t cells', s.call headType (.free ptr) = some t ∧ Kept exactly t cells' := by
  obtain ⟨g, holds, unlocked⟩ := live
  obtain ⟨c, member, _, rfl, _, kind, _⟩ := kept.grant holds
  rw [unlocked] at kind
  rw [Nat.add_sub_cancel] at valid
  obtain ⟨heap, cells', runs, freeing⟩ := exFreeHeap_spec busyHead kept.sound member kind valid
  exact ⟨_, cells', congrArg (Option.map _) runs, kept.release freeing.sound member freeing.busy⟩

theorem typed_kept (kept : Kept exactly s cells) {ptr : Nat} {g : Grant} (holds : s.held ptr = some g) (locked : Bool) :
    ∃ c : Cell, ptr = c.address + 32 ∧ s.heap.block c.address = some c.block ∧
      c.block.blockType = (if g.locked then heapBlockLocked else heapBlockAllocated) ∧
      ∃ cells', Kept exactly ⟨s.heap.setBlock c.address
          (c.typed (if locked then heapBlockLocked else heapBlockAllocated)).block,
        Function.update s.held ptr (some { g with locked := locked })⟩ cells' := by
  obtain ⟨c, member, busy, rfl, cellOk, kind, room⟩ := kept.grant holds
  obtain ⟨front, back, rfl⟩ := List.append_of_mem member
  let c' := c.typed (if locked then heapBlockLocked else heapBlockAllocated)
  have inUse : (if locked then heapBlockLocked else heapBlockAllocated) = heapBlockAllocated ∨
      (if locked then heapBlockLocked else heapBlockAllocated) = heapBlockLocked := by
    cases locked
    · exact .inl rfl
    · exact .inr rfl
  have sound := typed_sound kept.sound busy inUse
  have busies : ∀ e, Busy (front ++ c' :: back) e ↔ Busy (front ++ c :: back) e ∧ e ≠ c ∨ e = c' := by
    intro e
    have away : e ∈ front ++ back → e ≠ c := kept.sound.layout.gap_one.around (cells_forward c)
    have notFree : e = c' → ¬e.isFree := by
      rintro rfl
      exact typed_busy inUse
    simp only [Busy, List.mem_append, List.mem_cons] at away ⊢
    grind
  have exchanged := kept.exchange (g := { g with locked := locked }) sound member busies rfl room
  have address : c'.address = c.address := rfl
  rw [address, Function.update_idem] at exchanged
  exact ⟨c, rfl, cellOk.here, kind, _, exchanged⟩

theorem lock_kept (headType : Heap → BitVec 8) (kept : Kept exactly s cells) {ptr : Nat}
    (live : Live exactly s (.lock ptr)) (valid : expCheckBlockValid s.heap (ptr - 32) = true) :
    ∃ t cells', s.call headType (.lock ptr) = some t ∧ Kept exactly t cells' := by
  obtain ⟨g, holds, unlocked⟩ := live
  obtain ⟨c, rfl, here, kind, cells', typed⟩ := typed_kept kept holds true
  rw [unlocked] at kind
  rw [Nat.add_sub_cancel] at valid
  have runs : exLockHeapBlock s.heap (c.address + 32) =
      some (s.heap.setBlock c.address (c.typed heapBlockLocked).block) := by
    unfold exLockHeapBlock
    simp only [Nat.add_sub_cancel, here, Option.bind_some, kind, valid]
    rfl
  refine ⟨_, cells', congrArg (Option.map _) runs, ?_⟩
  rw [holds]
  exact typed

theorem unlock_kept (headType : Heap → BitVec 8) (kept : Kept exactly s cells) {ptr : Nat}
    (live : Live exactly s (.unlock ptr)) :
    ∃ t cells', s.call headType (.unlock ptr) = some t ∧ Kept exactly t cells' := by
  obtain ⟨g, holds, locked⟩ := live
  obtain ⟨c, rfl, here, kind, cells', typed⟩ := typed_kept kept holds false
  obtain ⟨c', _, _, same, cellOk, _⟩ := kept.grant holds
  rw [locked] at kind
  have type : c.block.blockType = heapBlockLocked := kind
  have address : c'.address = c.address := Nat.add_right_cancel same.symm
  have block : c'.block = c.block := by
    have there := cellOk.here
    rw [address, here] at there
    exact (Option.some.inj there).symm
  have valid : expCheckBlockValid s.heap c.address = true := by
    rw [← address]
    apply cellOk.valid
    rw [block, type]
    exact .inr (by decide)
  have runs : exUnlockHeapBlock s.heap (c.address + 32) =
      some (s.heap.setBlock c.address (c.typed heapBlockAllocated).block) := by
    unfold exUnlockHeapBlock
    simp only [Nat.add_sub_cancel, here, Option.bind_some, type, valid]
    rfl
  refine ⟨_, cells', congrArg (Option.map _) runs, ?_⟩
  rw [holds]
  exact typed

/-- A client writes inside its block, and in front of the padding if it writes only what it requested. -/
theorem Kept.written (kept : Kept exactly s cells) {ptr i : Nat} {value : BitVec 8}
    (live : Live exactly s (.write ptr i value)) :
    ∃ c, c ∈ cells ∧ ¬c.isFree ∧ ptr = c.address + 32 ∧ ptr + i < c.stop ∧
      (exactly = true → ptr + i < c.stop - c.block.paddingSize.toNat) := by
  obtain ⟨g, holds, inside⟩ := live
  obtain ⟨c, member, busy, rfl, cellOk, _, room⟩ := kept.grant holds
  have stop : c.stop = c.address + 32 + 16 * c.block.size.toNat := rfl
  refine ⟨c, member, busy, rfl, ?_⟩
  cases exactly with
  | false =>
    have length : blockBytes s.heap (c.address + 32) = 16 * c.block.size.toNat := by
      unfold blockBytes
      rw [Nat.add_sub_cancel, cellOk.here]
      rfl
    have below : i < blockBytes s.heap (c.address + 32) := inside
    exact ⟨by omega, nofun⟩
  | true =>
    have below : i < g.size.toNat := inside
    have enough := room rfl
    exact ⟨by omega, fun _ => by omega⟩

theorem write_kept (headType : Heap → BitVec 8) (kept : Kept exactly s cells) {ptr i : Nat} {value : BitVec 8}
    (live : Live exactly s (.write ptr i value)) :
    ∃ t cells', s.call headType (.write ptr i value) = some t ∧ Kept exactly t cells' := by
  obtain ⟨c, member, busy, rfl, below, clear⟩ := kept.written live
  have layout : Layout (exactly = true) (s.heap.memset (c.address + 32 + i) value 1) cells := by
    apply kept.sound.layout.write member busy (same_memset s.heap (c.address + 32 + i) value 1)
    · exact Nat.le_add_right _ _
    · exact below
    · exact clear
    · rfl
    · rfl
  exact ⟨_, cells, rfl, ⟨layout, kept.sound.merged⟩, kept.held, kept.busy⟩

/-- What a careful client's request means for a block that keeps two units: the padding gets shorter, and is behind
the new data. -/
theorem spared {headType : Heap → BitVec 8} (busyHead : ∀ s, headType s ≠ heapBlockFree) {front back : List Cell}
    {newSize : BitVec 32} {padded : Prop} (ok : Layout padded heap (front ++ c :: back)) (small : newSize < 0xFFFFFFF1)
    (resizes : Resizes headType true heap c.address c.block newSize) (two : TwoLeft c back newSize) :
    (keptPadding c newSize).toNat ≤ c.block.paddingSize.toNat ∧
      newSize.toNat + (keptPadding c newSize).toNat ≤ 16 * c.block.size.toNat := by
  have aligned := alignedUnits_toNat small
  have units : alignedUnits newSize + 2 = c.block.size := by
    rw [← two.1]
    bv_omega
  have sum : (alignedUnits newSize).toNat + 2 = c.block.size.toNat := by
    rw [← units]
    bv_omega
  have notFree : typeAt headType heap (heap.memoryOrderList.flink c.address) ≠ some heapBlockFree := by
    rcases next_type busyHead ok with ⟨d, rest, rfl, free, _, _⟩ | ⟨_, t, there, other⟩
    · exact absurd free (two.2 d rfl)
    · rw [there]
      exact fun same => other (Option.some.inj same)
  obtain ⟨enough, clear⟩ := resizes.spares rfl units notFree
  have padding := keptPadding_toNat (c := c) small
  have short := c.block.paddingSize.isLt
  omega

theorem realloc_kept {headType : Heap → BitVec 8} (busyHead : ∀ s, headType s ≠ heapBlockFree)
    (kept : Kept exactly s cells) {ptr : Nat} {newSize : BitVec 32} (live : Live exactly s (.realloc ptr newSize))
    (careful : Careful headType exactly s (.realloc ptr newSize))
    (valid : expCheckBlockValid s.heap (ptr - 32) = true) :
    (∃ t cells', s.call headType (.realloc ptr newSize) = some t ∧ Kept exactly t cells') ∨
      exactly = false ∧ s.call headType (.realloc ptr newSize) = none := by
  obtain ⟨g, holds, unlocked⟩ := live
  obtain ⟨c, member, busy, rfl, cellOk, kind, _⟩ := kept.grant holds
  obtain ⟨small, resizes⟩ := careful
  rw [unlocked] at kind
  rw [Nat.add_sub_cancel] at valid resizes
  have resizes := resizes c.block cellOk.here
  obtain ⟨front, back, rfl⟩ := List.append_of_mem member
  have layout := kept.sound.layout
  have room : c.block.paddingSize.toNat ≤ 16 * c.block.size.toNat := by
    rcases cellOk.kind with ⟨free, _⟩ | ⟨_, within, _⟩
    · exact absurd free busy
    · exact within
  cases returns : exReallocHeap headType s.heap (c.address + 32) newSize with
  | none =>
    right
    refine ⟨?_, congrArg (Option.map _) returns⟩
    cases exactly with
    | false => rfl
    | true =>
      have stays : Stays headType s.heap c back newSize :=
        ⟨small, fun two => Nat.le_trans (spared busyHead layout small resizes two).1 room,
          fun larger => resizes.grows (BitVec.not_le.mp larger)⟩
      rcases exReallocHeap_spec busyHead kept.sound kind valid stays with ⟨runs, _⟩ | ⟨heap, cells', c', runs, _⟩
      · rw [runs] at returns
        contradiction
      · rw [runs] at returns
        contradiction
  | some r =>
    have stays := returned_stays busyHead layout kind valid small (returns ▸ Option.some_ne_none r)
    left
    rcases exReallocHeap_spec busyHead kept.sound kind valid stays with
      ⟨runs, _⟩ | ⟨heap, cells', c', runs, resizing, roomy⟩
    · exact ⟨s, _, congrArg (Option.map _) runs, kept⟩
    · have behind : exactly = true → newSize.toNat + c'.block.paddingSize.toNat ≤ 16 * c'.block.size.toNat := by
        rintro rfl
        rcases roomy with whole | ⟨two, rfl⟩
        · exact Nat.le_of_eq whole
        · exact (spared busyHead layout small resizes two).2
      exact ⟨_, cells', congrArg (Option.map _) runs,
        kept.exchange (g := ⟨newSize, false⟩) resizing.sound member resizing.busy resizing.kind behind⟩

end kept

/-- The block at hand, in a call that checks it first. -/
def HeapCall.checked : HeapCall → Option Nat
  | .realloc ptr _ | .free ptr | .lock ptr => some ptr
  | _ => none

/-- The block that a call is about. -/
def HeapCall.pointer : HeapCall → Option Nat
  | .allocate _ => none
  | .realloc ptr _ | .free ptr | .lock ptr | .unlock ptr | .write ptr _ _ => some ptr

section steps

variable {headType : Heap → BitVec 8} {exactly : Bool} {s t : HeapState} {cells : List Cell} {call : HeapCall}

theorem call_checked (step : s.call headType call = some t) :
    ∀ ptr ∈ call.checked, expCheckBlockValid s.heap (ptr - 32) = true := by
  intro ptr named
  by_contra bad
  have invalid : expCheckBlockValid s.heap (ptr - 32) = false := Bool.eq_false_iff.mpr bad
  have nothing : s.call headType call = none := by
    cases call with
    | allocate | unlock | write => cases named
    | realloc ptr newSize =>
      obtain rfl := Option.some.inj named
      have stops : exReallocHeap headType s.heap ptr newSize = none := by
        simp only [exReallocHeap, invalid, Bool.not_false, if_true, ite_self]
        exact Option.bind_fun_none _
      exact congrArg (Option.map _) stops
    | free ptr =>
      obtain rfl := Option.some.inj named
      have stops : exFreeHeap headType s.heap ptr = none := by
        simp only [exFreeHeap, invalid, Bool.not_false, if_true]
      exact congrArg (Option.map _) stops
    | lock ptr =>
      obtain rfl := Option.some.inj named
      have stops : exLockHeapBlock s.heap ptr = none := by
        simp only [exLockHeapBlock, invalid, Bool.not_false, if_true, ite_self]
        exact Option.bind_fun_none _
      exact congrArg (Option.map _) stops
  rw [nothing] at step
  contradiction

variable (busyHead : ∀ s, headType s ≠ heapBlockFree)

include busyHead

theorem call_kept (kept : Kept exactly s cells) (live : Live exactly s call) (careful : Careful headType exactly s call)
    (valid : ∀ ptr ∈ call.checked, expCheckBlockValid s.heap (ptr - 32) = true) :
    (∃ t cells', s.call headType call = some t ∧ Kept exactly t cells') ∨
      exactly = false ∧ s.call headType call = none := by
  cases call with
  | allocate size => exact .inl (allocate_kept headType kept careful)
  | realloc ptr newSize => exact realloc_kept busyHead kept live careful (valid ptr rfl)
  | free ptr => exact .inl (free_kept busyHead kept live (valid ptr rfl))
  | lock ptr => exact .inl (lock_kept headType kept live (valid ptr rfl))
  | unlock ptr => exact .inl (unlock_kept headType kept live)
  | write ptr i value => exact .inl (write_kept headType kept live)

theorem step_kept (kept : Kept exactly s cells) (live : Live exactly s call) (careful : Careful headType exactly s call)
    (step : s.call headType call = some t) : ∃ cells', Kept exactly t cells' := by
  rcases call_kept busyHead kept live careful (call_checked step) with ⟨u, cells', returns, after⟩ | ⟨_, stops⟩
  · rw [step] at returns
    obtain rfl := Option.some.inj returns
    exact ⟨cells', after⟩
  · rw [step] at stops
    contradiction

/-- Where clients leave the padding alone, each call returns. -/
theorem call_returns (kept : Kept true s cells) (live : Live true s call) (careful : Careful headType true s call) :
    ∃ t, s.call headType call = some t := by
  have valid : ∀ ptr ∈ call.checked, expCheckBlockValid s.heap (ptr - 32) = true := by
    intro ptr named
    have holds : ∃ g, s.held ptr = some g := by
      cases call with
      | allocate | unlock | write => cases named
      | realloc ptr | free ptr | lock ptr =>
        obtain rfl := Option.some.inj named
        obtain ⟨g, holds, _⟩ := live
        exact ⟨g, holds⟩
    obtain ⟨g, holds⟩ := holds
    obtain ⟨c, _, _, rfl, cellOk, _⟩ := kept.grant holds
    rw [Nat.add_sub_cancel]
    exact cellOk.valid (.inl rfl)
  rcases call_kept busyHead kept live careful valid with ⟨t, _, returns, _⟩ | ⟨different, _⟩
  · exact ⟨t, returns⟩
  · contradiction

end steps

/-- The kernel's heap at the start, of which nobody holds anything. -/
def HeapState.start (memory : Buffer) (links : Links Nat) (expHeapCookie : BitVec 16) : HeapState where
  heap := exInitializeHeap memory links expHeapCookie
  held _ := none

section start

variable (memory : Buffer) (links : Links Nat) (expHeapCookie : BitVec 16)

theorem newFreeBlock_ok (padded : Prop) (s : Heap) (a : Nat) (size : BitVec 32) :
    CellOk padded ((s.newFreeBlock a size).memset (a + 32) freedPadding (16 * size.toNat)) (newCell s a size) := by
  have filled := same_memset (s.newFreeBlock a size) (a + 32) freedPadding (16 * size.toNat)
  refine ⟨?_, rfl, rfl, .inl ⟨rfl, fun x above below => ?_⟩⟩
  · exact (filled.block a (.inl (Nat.le_refl _))).trans (setBlock_self s a (newCell s a size).block)
  · change fill s.byte (a + 32) (a + 32 + 16 * size.toNat) (fun _ => freedPadding) x = freedPadding
    exact fill_inside above below

/-- The arena before the first block is made. -/
def emptyHeap : Heap where
  block _ := none
  list := insertTailList (initializeListHead (initializeListHead links expFreeBlockList) expAllocatedBlockList)
    expFreeBlockList expHeapArea
  memoryOrderList := insertTailList (initializeListHead links expMemoryOrderBlockList) expMemoryOrderBlockList expHeapArea
  byte := memory
  expHeapCookie := expHeapCookie

/-- The block that ExInitializeHeap makes of the whole arena. -/
def initialCell : Cell :=
  newCell (emptyHeap memory links expHeapCookie) expHeapArea (BitVec.ofNat 32 ((expHeapSize - 32) / 16))

theorem listed_empty : Listed (initializeListHead (initializeListHead links expFreeBlockList) expAllocatedBlockList)
    (fun _ => False) fun _ => False :=
  ⟨[], [], ring_nil rfl rfl, ring_nil rfl rfl, fun _ => List.mem_nil_iff _, fun _ => List.mem_nil_iff _⟩

theorem initial_size : 16 * (BitVec.ofNat 32 ((expHeapSize - 32) / 16)).toNat + 32 = expHeapSize := by decide

theorem start_sound (padded : Prop) : Sound padded (HeapState.start memory links expHeapCookie).heap
    [initialCell memory links expHeapCookie] := by
  let c := initialCell memory links expHeapCookie
  have free : c.isFree := rfl
  have cellOk : CellOk padded (HeapState.start memory links expHeapCookie).heap c :=
    newFreeBlock_ok padded (emptyHeap memory links expHeapCookie) expHeapArea _
  have stop : c.stop = expHeapEnd := by
    have start : c.stop = expHeapArea + 32 + 16 * (BitVec.ofNat 32 ((expHeapSize - 32) / 16)).toNat := rfl
    have whole := initial_size
    unfold expHeapEnd
    omega
  refine ⟨⟨⟨rfl, stop⟩, List.forall_mem_singleton.mpr cellOk, ?_, ?_⟩, List.isChain_singleton _⟩
  · have ring : Ring (initializeListHead links expMemoryOrderBlockList) expMemoryOrderBlockList [] := ring_nil rfl rfl
    exact ring_insertTail ring (by decide)
  · have apart : ListsApart (fun _ => False) fun _ => False := ⟨nofun, nofun, nofun⟩
    have added := (listed_empty links).add apart (e := expHeapArea) (by decide) not_false not_false
    apply added.congr
    · intro x
      rw [freeAt_one, false_or]
      exact ⟨fun same => ⟨same, free⟩, And.left⟩
    · intro x
      rw [busyAt_one]
      exact ⟨False.elim, fun busy => busy.2 free⟩

theorem start_kept (exactly : Bool) :
    Kept exactly (HeapState.start memory links expHeapCookie) [initialCell memory links expHeapCookie] where
  sound := start_sound memory links expHeapCookie (exactly = true)
  held _ _ := nofun
  busy c inUse := by
    obtain ⟨member, busy⟩ := inUse
    rw [List.mem_singleton.mp member] at busy
    exact absurd rfl busy

end start

end Gr8os.Ex
