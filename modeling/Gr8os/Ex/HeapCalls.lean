import Gr8os.Ex.HeapIntegrity

/-! What one call does to a heap that is in order: which block an allocation gets, whether the bytes asked for are in
it, and what becomes of the data when a block is resized. -/
namespace Gr8os.Ex

open Intrusive Ke Bytes Tiling Runs

section search

variable {s : Heap} {blocks : List Nat} {size : BitVec 32}

/-- The blocks on the free list are valid free blocks, which lie apart from each other in the arena. -/
structure FreeList (s : Heap) (blocks : List Nat) : Prop where
  ring : Ring s.list expFreeBlockList blocks
  valid : ∀ a ∈ blocks, expCheckBlockValid s a = true
  free : ∀ a ∈ blocks, ∃ b, s.block a = some b ∧ b.blockType = heapBlockFree
  inside : ∀ a ∈ blocks, expHeapArea ≤ a ∧ a + 32 ≤ expHeapEnd
  apart : blocks.Pairwise fun a a' => a + 32 ≤ a' ∨ a' + 32 ≤ a

/-- The block at `a` is large enough for a request, which is rounded up to units of 16 bytes. -/
def HasRoom (s : Heap) (size : BitVec 32) (a : Nat) : Prop :=
  ∃ b, s.block a = some b ∧ (size.toNat + 15) / 16 ≤ b.size.toNat

/-- A smallest block among those that are large enough, or none where no block is. -/
def BestFit (s : Heap) (blocks : List Nat) (size : BitVec 32) : Option Nat → Prop
  | none => ∀ a ∈ blocks, ¬HasRoom s size a
  | some a => a ∈ blocks ∧ HasRoom s size a ∧ ∀ b, s.block a = some b →
      ∀ a' ∈ blocks, HasRoom s size a' → ∀ b', s.block a' = some b' → b.size ≤ b'.size

theorem FreeList.header (ok : FreeList s blocks) {a : Nat} (member : a ∈ blocks) : ∃ b, s.block a = some b := by
  obtain ⟨b, here, _⟩ := ok.free a member
  exact ⟨b, here⟩

/-- Headers of 32 bytes that lie apart fill different slots of the arena. -/
theorem FreeList.length_lt (ok : FreeList s blocks) : blocks.length < heapBlocks := by
  have slots : (blocks.map fun a => (a - expHeapArea) / 32).Nodup := by
    apply List.pairwise_map.mpr
    apply ok.apart.imp_of_mem
    intro a a' member member' apart
    have low := (ok.inside a member).1
    have low' := (ok.inside a' member').1
    omega
  have within : (blocks.map fun a => (a - expHeapArea) / 32) ⊆ List.range 0x80000 := by
    intro slot member
    obtain ⟨a, inside, rfl⟩ := List.mem_map.mp member
    have bounds := ok.inside a inside
    unfold expHeapEnd expHeapSize at bounds
    apply List.mem_range.mpr
    omega
  have fewer := slots.length_le_of_subset within
  rw [List.length_map, List.length_range] at fewer
  unfold heapBlocks
  omega

/-- The search sees each block of the list, in whatever order they are. -/
theorem FreeList.search (ok : FreeList s blocks) (small : size < 0xFFFFFFF1) :
    ∃ found, expFindIdealBlock s size = some found ∧ BestFit s blocks size found := by
  have aligned := alignedUnits_toNat small
  have enough : ∀ b : EheapBlock, (size.toNat + 15) / 16 ≤ b.size.toNat ↔ alignedUnits size ≤ b.size := by
    intro b
    rw [BitVec.le_def, aligned]
  have each : ∀ a ∈ blocks, a ≠ expFreeBlockList ∧ expCheckBlockValid s a = true ∧ ∃ b, s.block a = some b := by
    intro a member
    refine ⟨?_, ok.valid a member, ok.header member⟩
    rintro rfl
    exact absurd (ok.inside _ member).1 (by decide)
  have start : IdealOf s (alignedUnits size) [] none := fun a member => absurd member List.not_mem_nil
  obtain ⟨found, runs, ideal⟩ := findIdeal_spec ok.ring.2 start ok.length_lt each
  rw [List.nil_append] at ideal
  refine ⟨_, runs, ?_⟩
  cases found with
  | none =>
    rintro a member ⟨b, here, large⟩
    exact ideal a member b here ((enough b).mp large)
  | some found =>
    obtain ⟨⟨member, b, here, same, large⟩, least⟩ := ideal
    refine ⟨member, ⟨b, here, ?_⟩, fun b₁ here₁ a' member' room b' here' => ?_⟩
    · rw [enough, same]
      exact large
    · obtain ⟨b₂, here₂, large'⟩ := room
      rw [here'] at here₂
      obtain rfl := Option.some.inj here₂
      rw [here] at here₁
      obtain rfl := Option.some.inj here₁
      rw [same]
      exact least a' member' b' here' ((enough b').mp large')

/-- An allocation in a block returns, whatever the size is. -/
theorem allocateInBlock_returns (size : BitVec 32) {a : Nat} {b : EheapBlock} (here : s.block a = some b) :
    ∃ s', expAllocateHeapInBlock s a size = some (a + 32, s') := by
  have written : ∀ b', ∃ s', (s.setBlock a b').writeAllocPadding a = some s' := by
    intro b'
    unfold Heap.writeAllocPadding
    rw [setBlock_self]
    exact ⟨_, rfl⟩
  unfold expAllocateHeapInBlock
  rw [here, Option.bind_some]
  simp only
  split
  · obtain ⟨s', writes⟩ := written _
    rw [writes]
    exact ⟨_, rfl⟩
  · obtain ⟨s', writes⟩ := written _
    rw [writes]
    exact ⟨_, rfl⟩

/-- ExpFindIdealBlock finds a best fit, and ExAllocateHeap fails where there is none and only there. -/
theorem expFindIdealBlock_best (ok : FreeList s blocks) (small : size.toNat ≤ expHeapSize) :
    ∃ found, expFindIdealBlock s size = some found ∧ BestFit s blocks size found ∧
      (found = none ↔ ∀ a ∈ blocks, ¬HasRoom s size a) ∧
      ∃ ptr s', exAllocateHeap s size = some (ptr, s') ∧ (ptr = none ↔ ∀ a ∈ blocks, ¬HasRoom s size a) := by
  have below : size < 0xFFFFFFF1 := Nat.lt_of_le_of_lt small (by decide)
  obtain ⟨found, search, best⟩ := ok.search below
  refine ⟨found, search, best, ?_⟩
  unfold exAllocateHeap
  rw [search, Option.bind_some]
  cases found with
  | none => exact ⟨iff_of_true rfl best, none, s, rfl, iff_of_true rfl best⟩
  | some a =>
    obtain ⟨member, room, _⟩ := best
    obtain ⟨b, here⟩ := ok.header member
    obtain ⟨s', allocates⟩ := allocateInBlock_returns size here
    have notFull : ¬∀ a ∈ blocks, ¬HasRoom s size a := fun full => full a member room
    refine ⟨iff_of_false nofun notFull, some (a + 32), s', ?_, iff_of_false nofun notFull⟩
    simp only
    rw [allocates]
    rfl

theorem Layout.freeList {padded : Prop} {cells : List Cell} (ok : Layout padded s cells) :
    ∃ blocks, FreeList s blocks ∧ ∀ a, a ∈ blocks ↔ FreeAt cells a := by
  obtain ⟨fs, _, ring, _, inFree, _⟩ := ok.listed
  refine ⟨fs, ⟨ring, fun a member => ?_, fun a member => ?_, fun a member => ?_, ?_⟩, inFree⟩
  · obtain ⟨c, inside, rfl, free⟩ := (inFree a).mp member
    exact (ok.cell c inside).valid (.inr fun allocated => Cell.in_use (.inl allocated) free)
  · obtain ⟨c, inside, rfl, free⟩ := (inFree a).mp member
    exact ⟨c.block, (ok.cell c inside).here, free⟩
  · obtain ⟨c, inside, rfl, _⟩ := (inFree a).mp member
    have bounds := ok.bounds inside
    unfold Cell.stop at bounds
    omega
  · apply (List.nodup_cons.mp ring.1).2.imp_of_mem
    intro a a' member member' ne
    obtain ⟨c, inside, rfl, _⟩ := (inFree a).mp member
    obtain ⟨d, inside', rfl, _⟩ := (inFree a').mp member'
    have other : d ≠ c := by
      rintro rfl
      exact ne rfl
    have apart := ok.disjoint inside inside' other
    unfold Cell.stop at apart
    omega

end search

/-- A block of 320 bytes is free again in front of one that is in use, and the rest of the arena is free too. -/
def twoHoles : List HeapCall := [.allocate 320, .allocate 16, .free firstData]

theorem twoHoles_best : ∃ s blocks found, Run (CarefulStep zeroHead true) freshHeap twoHoles s ∧
    FreeList s.heap blocks ∧ expFindIdealBlock s.heap 100 = some found ∧ BestFit s.heap blocks 100 found := by
  have returns : (exec (guarded (fun s call => Live true s call ∧ Careful zeroHead true s call) fun s call =>
      s.call zeroHead call) freshHeap twoHoles).isSome := by decide +kernel
  obtain ⟨s, runs⟩ := Option.isSome_iff_exists.mp returns
  obtain ⟨cells, kept⟩ := run_kept zeroHead_busy (start_kept _ _ _ true) (guarded_run runs)
  obtain ⟨blocks, ok, _⟩ := kept.sound.layout.freeList
  have small : (100 : BitVec 32).toNat ≤ expHeapSize := by decide
  obtain ⟨found, search, best, _⟩ := expFindIdealBlock_best ok small
  exact ⟨s, blocks, found, guarded_run runs, ok, search, best⟩

section capacity

variable {padded : Prop} {s : Heap} {cells : List Cell} {size : BitVec 32}

/-- What an allocation of some bytes is to give: a place for them inside one allocated block, which no block in use
overlaps, and NULL where no free block can hold them. -/
def Holds (padded : Prop) (cells : List Cell) (size : BitVec 32) : Option (Option Nat × Heap) → Prop
  | none => False
  | some (none, _) => True
  | some (some ptr, s') => ¬(∀ c ∈ cells, c.isFree → 16 * c.block.size.toNat < size.toNat) ∧
      ∃ cells' c', Layout padded s' cells' ∧ c' ∈ cells' ∧ c'.block.blockType = heapBlockAllocated ∧
        c'.address + 32 ≤ ptr ∧ ptr + size.toNat ≤ c'.stop ∧
        ∀ d, Busy cells d → d ∈ cells' ∧ (d.stop ≤ ptr ∨ ptr + size.toNat ≤ d.address)

/-- A size that is rounded up to units gets a block that has room for it. -/
theorem allocation_holds (ok : Sound padded s cells) (small : size < 0xFFFFFFF1) :
    Holds padded cells size (exAllocateHeap s size) := by
  have aligned := alignedUnits_toNat small
  rcases exAllocateHeap_spec ok small with ⟨runs, _⟩ | ⟨c, s', cells', c', runs, ideal, allocation⟩
  · rw [runs]
    trivial
  · have room := allocation.room
    have stop : c'.stop = c'.address + 32 + 16 * c'.block.size.toNat := rfl
    have same := allocation.address
    have new : Busy cells' c' := (allocation.busy c').mpr (.inr rfl)
    have large : (alignedUnits size).toNat ≤ c.block.size.toNat := ideal.large
    rw [runs]
    refine ⟨fun full => ?_, cells', c', allocation.sound.layout, new.1, allocation.kind, by omega, by omega,
      fun d inUse => ?_⟩
    · have short := full c ideal.member ideal.free
      omega
    · have still : Busy cells' d := (allocation.busy d).mpr (.inl inUse)
      have other : d ≠ c' := by
        rintro rfl
        have here : d = c := tiles_inj cells_forward ok.layout.tiled inUse.1 ideal.member same
        exact inUse.2 (here ▸ ideal.free)
      have apart := allocation.sound.layout.disjoint new.1 still.1 other
      exact ⟨still.1, by omega⟩

theorem alignedUnits_wrapped (large : ¬size < 0xFFFFFFF1) : alignedUnits size = 0 := by
  have above : 0xFFFFFFF1 ≤ size.toNat := Nat.le_of_not_lt large
  have bound := size.isLt
  have odd : size &&& 15 ≠ 0 := by
    intro even
    have low := low_toNat size
    rw [even] at low
    change 0 = size.toNat % 16 at low
    omega
  have cleared : ((size >>> 4) <<< 4).toNat = size.toNat / 16 * 16 := by
    rw [BitVec.toNat_shiftLeft, BitVec.toNat_ushiftRight, Nat.shiftRight_eq_div_pow, Nat.shiftLeft_eq]
    omega
  unfold alignedUnits
  rw [if_pos odd]
  apply BitVec.eq_of_toNat_eq
  rw [BitVec.toNat_ushiftRight, Nat.shiftRight_eq_div_pow, clearLow_eq, BitVec.toNat_add, cleared]
  change (size.toNat / 16 * 16 + 16) % 4294967296 / 16 = 0
  omega

/-- A size that is rounded up to nothing gets the smallest free block there is. -/
theorem wrapped_returns (ok : Sound padded s cells) (large : ¬size < 0xFFFFFFF1) {c : Cell} (member : c ∈ cells)
    (free : c.isFree) : ∃ ptr s', exAllocateHeap s size = some (some ptr, s') := by
  have nothing : alignedUnits size = 0 := alignedUnits_wrapped large
  unfold exAllocateHeap
  rcases expFindIdealBlock_spec ok.layout size with ⟨_, noBlock⟩ | ⟨d, search, ideal⟩
  · have none := noBlock c member free
    rw [nothing] at none
    exact absurd (Nat.zero_le _ : (0 : BitVec 32) ≤ c.block.size) none
  · obtain ⟨s', allocates⟩ := allocateInBlock_returns size (ok.layout.cell d ideal.member).here
    refine ⟨d.address + 32, s', ?_⟩
    rw [search, Option.bind_some]
    simp only
    rw [allocates]
    rfl

end capacity

/-- The one block of the heap over zeroed memory. -/
def wholeArena : Cell := initialCell (fun _ => 0) ⟨fun _ => 0, fun _ => 0⟩ 0x1234

theorem freshHeap_sound (padded : Prop) : Sound padded freshHeap.heap [wholeArena] :=
  start_sound (fun _ => 0) ⟨fun _ => 0, fun _ => 0⟩ 0x1234 padded

section resize

variable {headType : Heap → BitVec 8} (busyHead : ∀ s, headType s ≠ heapBlockFree) {padded : Prop} {s : Heap}
  {front back cells : List Cell} {c : Cell} {size newSize : BitVec 32}

/-- What a reallocation of the block `c` is to do, of which `size` bytes were requested: the block that the result
points to has the bytes now requested in front of its padding, and the data from before is at its start. -/
def Preserves (padded : Prop) (s : Heap) (cells : List Cell) (c : Cell) (size newSize : BitVec 32) :
    Option (Option Nat × Heap) → Prop
  | none => False
  | some (none, s') => s' = s
  | some (some ptr, s') => ∃ cells' c', Layout padded s' cells' ∧ c' ∈ cells' ∧
      c'.block.blockType = heapBlockAllocated ∧ ptr = c'.address + 32 ∧
      newSize.toNat + c'.block.paddingSize.toNat ≤ 16 * c'.block.size.toNat ∧
      (∀ i < min size.toNat newSize.toNat, s'.byte (ptr + i) = s.byte (c.address + 32 + i)) ∧
      ∀ d, Busy cells d → d ≠ c → d ∈ cells' ∧ d ≠ c' ∧ ∀ x, d.address ≤ x → x < d.stop → s'.byte x = s.byte x

include busyHead in
theorem twoLeft_iff (ok : Layout padded s (front ++ c :: back)) : TwoLeft c back newSize ↔
    alignedUnits newSize + 2 = c.block.size ∧
      typeAt headType s (s.memoryOrderList.flink c.address) ≠ some heapBlockFree := by
  have units : c.block.size - alignedUnits newSize = 2 ↔ alignedUnits newSize + 2 = c.block.size := by bv_omega
  unfold TwoLeft
  rw [units]
  apply and_congr_right
  intro _
  rcases next_type busyHead ok with ⟨d, rest, rfl, free, next, there⟩ | ⟨behind, t, there, other⟩
  · rw [next]
    exact iff_of_false (fun busy => busy d rfl free) (not_not_intro there)
  · rw [there]
    exact iff_of_true behind fun same => other (Option.some.inj same)

/-- The result points into the block itself or into one that was free. -/
theorem realloc_place (ok : Layout padded s cells) (member : c ∈ cells) (kind : c.block.blockType = heapBlockAllocated)
    (valid : expCheckBlockValid s c.address = true) {ptr : Nat} {s' : Heap}
    (runs : exReallocHeap headType s (c.address + 32) newSize = some (some ptr, s')) :
    ∃ d ∈ cells, (d = c ∨ d.isFree) ∧ ptr = d.address + 32 := by
  rw [exReallocHeap_eq (ok.cell c member) kind valid] at runs
  split at runs
  · obtain ⟨_, _, same⟩ := Option.map_eq_some_iff.mp runs
    exact ⟨c, member, .inl rfl, (Option.some.inj (Prod.mk.inj same).1).symm⟩
  · obtain ⟨grows, _, runs⟩ := Option.bind_eq_some_iff.mp runs
    split at runs
    · contradiction
    · rcases expFindIdealBlock_spec ok newSize with ⟨search, _⟩ | ⟨d, search, ideal⟩
      · rw [search] at runs
        cases runs
      · obtain ⟨t, allocates⟩ := allocateInBlock_returns newSize (ok.cell d ideal.member).here
        rw [search, Option.bind_some] at runs
        simp only at runs
        rw [allocates, Option.bind_some] at runs
        obtain ⟨b, _, runs⟩ := Option.bind_eq_some_iff.mp runs
        obtain ⟨_, _, same⟩ := Option.map_eq_some_iff.mp runs
        exact ⟨d, ideal.member, .inr ideal.free, (Option.some.inj (Prod.mk.inj same).1).symm⟩

include busyHead in
theorem resized_preserves (ok : Sound padded s (front ++ c :: back)) (kind : c.block.blockType = heapBlockAllocated)
    (valid : expCheckBlockValid s c.address = true) (small : newSize < 0xFFFFFFF1)
    (requested : size.toNat + c.block.paddingSize.toNat ≤ 16 * c.block.size.toNat)
    (resizes : Resizes headType true s c.address c.block newSize) :
    Preserves padded s (front ++ c :: back) c size newSize (exReallocHeap headType s (c.address + 32) newSize) := by
  have room : c.block.paddingSize.toNat ≤ 16 * c.block.size.toNat := Nat.le_trans (Nat.le_add_left _ _) requested
  have stays : Stays headType s c back newSize := by
    refine ⟨small, fun two => ?_, fun larger => resizes.grows (BitVec.not_le.mp larger)⟩
    exact Nat.le_trans (spared busyHead ok.layout small resizes two).1 room
  rcases exReallocHeap_spec busyHead ok kind valid stays with ⟨runs, _⟩ | ⟨s', cells', c', runs, resizing, roomy⟩
  · rw [runs]
    rfl
  · have clear : newSize.toNat + c'.block.paddingSize.toNat ≤ 16 * c'.block.size.toNat := by
      rcases roomy with whole | ⟨two, rfl⟩
      · exact Nat.le_of_eq whole
      · exact (spared busyHead ok.layout small resizes two).2
    have new := (resizing.busy c').mpr (.inr rfl)
    rw [runs]
    refine ⟨cells', c', resizing.sound.layout, new.1, resizing.kind, rfl, clear, fun i inside => ?_,
      fun d inUse ne => ?_⟩
    · exact resizing.data i (by omega) (by omega)
    · obtain ⟨e, member, place, same⟩ :=
        realloc_place ok.layout (List.mem_append_right _ List.mem_cons_self) kind valid runs
      have still := (resizing.busy d).mpr (.inl ⟨inUse, ne⟩)
      refine ⟨still.1, ?_, resizing.others d inUse ne⟩
      rintro rfl
      obtain rfl : d = e := tiles_inj cells_forward ok.layout.tiled inUse.1 member (Nat.add_right_cancel same)
      rcases place with rfl | free
      · exact ne rfl
      · exact inUse.2 free

include busyHead in
/-- The block that keeps two units has its new padding when the call returns. -/
theorem two_padded (ok : Sound padded s (front ++ c :: back)) (kind : c.block.blockType = heapBlockAllocated)
    (two : TwoLeft c back newSize) {s' : Heap}
    (runs : reallocInPlace headType s c.address c.block newSize (alignedUnits newSize) = some s') :
    s'.block c.address = some (c.sized c.block.size (keptPadding c newSize)).block := by
  by_cases inside : (keptPadding c newSize).toNat ≤ 16 * c.block.size.toNat
  · obtain ⟨t, written, _, cellOk⟩ := realloc_pad ok kind inside
    have returns : reallocInPlace headType s c.address c.block newSize (alignedUnits newSize) = some t := by
      have far : ¬c.block.size - alignedUnits newSize < 2 := by
        rw [two.1]
        decide
      unfold reallocInPlace
      rw [if_neg far]
      rcases next_type busyHead ok.layout with ⟨d, rest, rfl, free, _, _⟩ | ⟨_, u, there, other⟩
      · exact absurd free (two.2 d rfl)
      · simp only [there, Option.bind_some, if_neg other, if_pos two.1]
        have valid : expCheckBlockValid t c.address = true := cellOk.valid (.inl trivial)
        have checked : ((s.setBlock c.address (c.sized c.block.size (keptPadding c newSize)).block).writeAllocPadding
            c.address).bind (fun s => if !expCheckBlockValid s c.address then none else some s) = some t := by
          rw [written, Option.bind_some, valid]
          rfl
        exact checked
    rw [returns] at runs
    obtain rfl := Option.some.inj runs
    exact cellOk.here
  · rw [reallocInPlace_wiped busyHead ok.layout two (Nat.lt_of_not_le inside)] at runs
    contradiction

include busyHead in
theorem preserves_resizes (ok : Sound padded s (front ++ c :: back)) (kind : c.block.blockType = heapBlockAllocated)
    (valid : expCheckBlockValid s c.address = true) (small : newSize < 0xFFFFFFF1)
    (preserves : Preserves padded s (front ++ c :: back) c size newSize
      (exReallocHeap headType s (c.address + 32) newSize)) :
    Resizes headType true s c.address c.block newSize := by
  have aligned := alignedUnits_toNat small
  constructor
  · intro larger grown
    rw [exReallocHeap_eq ok.layout.ok kind valid, if_neg (BitVec.not_le.mpr larger), grown] at preserves
    exact preserves
  · intro _ units notFree
    have two : TwoLeft c back newSize := (twoLeft_iff busyHead ok.layout).mpr ⟨units, notFree⟩
    have sum : (alignedUnits newSize).toNat + 2 = c.block.size.toNat := by
      have size := ok.layout.size_lt (List.mem_append_right front List.mem_cons_self)
      bv_omega
    have fits : alignedUnits newSize ≤ c.block.size := Nat.le_of_add_right_le (Nat.le_of_eq sum)
    rw [exReallocHeap_eq ok.layout.ok kind valid, if_pos fits] at preserves
    cases runs : reallocInPlace headType s c.address c.block newSize (alignedUnits newSize) with
    | none =>
      rw [runs] at preserves
      exact preserves.elim
    | some s' =>
      rw [runs] at preserves
      obtain ⟨cells', c', layout, member, _, same, clear, _⟩ := preserves
      have there := (layout.cell c' member).here
      rw [← Nat.add_right_cancel same, two_padded busyHead ok kind two runs] at there
      rw [← Option.some.inj there] at clear
      change newSize.toNat + (keptPadding c newSize).toNat ≤ 16 * c.block.size.toNat at clear
      have padding := keptPadding_toNat (c := c) small
      have short := c.block.paddingSize.isLt
      omega

/-- A reallocation keeps the data exactly where it neither moves the next block's header nor keeps two units that the
padding counts wrong. -/
theorem exReallocHeap_preserves_iff (busyHead : ∀ s, headType s ≠ heapBlockFree) (ok : Sound padded s cells)
    (member : c ∈ cells) (kind : c.block.blockType = heapBlockAllocated)
    (valid : expCheckBlockValid s c.address = true)
    (requested : size.toNat + c.block.paddingSize.toNat ≤ 16 * c.block.size.toNat) (small : newSize < 0x80000000) :
    Preserves padded s cells c size newSize (exReallocHeap headType s (c.address + 32) newSize) ↔
      Resizes headType true s c.address c.block newSize := by
  have below : newSize < 0xFFFFFFF1 := Nat.lt_trans small (by decide : 0x80000000 < 0xFFFFFFF1)
  obtain ⟨front, back, rfl⟩ := List.append_of_mem member
  constructor
  · exact preserves_resizes busyHead ok kind valid below
  · exact resized_preserves busyHead ok kind valid below requested

end resize

/-- A block of 320 bytes in front of another one that is in use. -/
def neighbours : List HeapCall := [.allocate 320, .allocate 16]

/-- The block is cut to 64 bytes. -/
theorem neighbours_preserved : ∃ s cells c, Run (CarefulStep zeroHead true) freshHeap neighbours s ∧
    Sound True s.heap cells ∧ c ∈ cells ∧ c.address + 32 = firstData ∧
    Preserves True s.heap cells c 320 64 (exReallocHeap zeroHead s.heap (c.address + 32) 64) := by
  have returns : (exec (guarded (fun s call => Live true s call ∧ Careful zeroHead true s call) fun s call =>
      s.call zeroHead call) freshHeap neighbours).map (fun s => decide (s.held firstData = some ⟨320, false⟩ ∧
        ∀ b ∈ s.heap.block (firstData - 32), Resizes zeroHead true s.heap (firstData - 32) b 64)) = some true := by
    decide
  obtain ⟨s, runs, facts⟩ := Option.map_eq_some_iff.mp returns
  obtain ⟨holds, resizes⟩ := of_decide_eq_true facts
  obtain ⟨cells, kept⟩ := run_kept zeroHead_busy (start_kept _ _ _ true) (guarded_run runs)
  obtain ⟨c, member, _, place, cellOk, kind, room⟩ := kept.grant holds
  have sound : Sound True s.heap cells := eq_true (rfl : true = true) ▸ kept.sound
  rw [place, Nat.add_sub_cancel] at resizes
  have preserves := (exReallocHeap_preserves_iff zeroHead_busy sound member kind (cellOk.valid (.inl rfl))
    (room rfl) (by decide : (64 : BitVec 32) < 0x80000000)).mpr (resizes c.block cellOk.here)
  exact ⟨s, cells, c, guarded_run runs, sound, member, place.symm, preserves⟩

/-- The block in front of the rest of the arena is to grow into it. -/
theorem grown_not_preserved : ∃ s cells c, Run (CarefulStep zeroHead true) freshHeap [.allocate 320] s ∧
    Sound True s.heap cells ∧ c ∈ cells ∧ c.address + 32 = firstData ∧ c.block.blockType = heapBlockAllocated ∧
    320 + c.block.paddingSize.toNat ≤ 16 * c.block.size.toNat ∧
    ¬Preserves True s.heap cells c 320 400 (exReallocHeap zeroHead s.heap (c.address + 32) 400) := by
  have returns : (exec (guarded (fun s call => Live true s call ∧ Careful zeroHead true s call) fun s call =>
      s.call zeroHead call) freshHeap [.allocate 320]).map (fun s => decide (s.held firstData = some ⟨320, false⟩ ∧
        (exReallocHeap zeroHead s.heap firstData 400).isNone)) = some true := by decide
  obtain ⟨s, runs, facts⟩ := Option.map_eq_some_iff.mp returns
  obtain ⟨holds, stops⟩ := of_decide_eq_true facts
  obtain ⟨cells, kept⟩ := run_kept zeroHead_busy (start_kept _ _ _ true) (guarded_run runs)
  obtain ⟨c, member, _, place, _, kind, room⟩ := kept.grant holds
  rw [place, Option.isNone_iff_eq_none] at stops
  have sound : Sound True s.heap cells := eq_true (rfl : true = true) ▸ kept.sound
  refine ⟨s, cells, c, guarded_run runs, sound, member, place.symm, kind, room rfl, ?_⟩
  rw [stops]
  exact not_false

end Gr8os.Ex
