import Gr8os.Ex.HeapBlocks
import Mathlib.Data.List.Chain

/-! The layout of a heap, and what an allocation in a free block makes of it. -/
namespace Gr8os.Ex

open Intrusive Ke Bytes Tiling

def expHeapEnd : Nat := expHeapArea + expHeapSize

def FreeAt (cells : List Cell) (a : Nat) : Prop := ∃ c ∈ cells, c.address = a ∧ c.isFree

def BusyAt (cells : List Cell) (a : Nat) : Prop := ∃ c ∈ cells, c.address = a ∧ ¬c.isFree

/-- The blocks fill the arena, each is valid, and the lists hold them in memory order and by their types. -/
structure Layout (padded : Prop) (s : Heap) (cells : List Cell) : Prop where
  tiled : Tiles Cell.address Cell.stop expHeapArea cells expHeapEnd
  cell : ∀ c ∈ cells, CellOk padded s c
  order : Ring s.memoryOrderList expMemoryOrderBlockList (cells.map Cell.address)
  listed : Listed s.list (FreeAt cells) (BusyAt cells)

/-- The blocks around a stretch of the arena. -/
structure Gap (padded : Prop) (s : Heap) (front back : List Cell) (lo hi : Nat) : Prop where
  before : Tiles Cell.address Cell.stop expHeapArea front lo
  after : Tiles Cell.address Cell.stop hi back expHeapEnd
  kept : ∀ c ∈ front ++ back, CellOk padded s c

variable {padded : Prop}

section gap

variable {s s' : Heap} {front mid back : List Cell} {c d : Cell} {lo hi : Nat}

theorem Layout.gap (ok : Layout padded s (front ++ (mid ++ back))) :
    ∃ lo hi, Gap padded s front back lo hi ∧ Tiles Cell.address Cell.stop lo mid hi := by
  obtain ⟨lo, before, rest⟩ := tiles_append.mp ok.tiled
  obtain ⟨hi, inside, after⟩ := tiles_append.mp rest
  refine ⟨lo, hi, ⟨before, after, fun c member => ok.cell c ?_⟩, inside⟩
  rcases List.mem_append.mp member with inFront | inBack
  · exact List.mem_append_left _ inFront
  · exact List.mem_append_right _ (List.mem_append_right _ inBack)

theorem Layout.gap_one (ok : Layout padded s (front ++ c :: back)) : Gap padded s front back c.address c.stop := by
  have whole : Layout padded s (front ++ ([c] ++ back)) := ok
  obtain ⟨lo, hi, gap, begins, ends⟩ := whole.gap
  rw [begins, show c.stop = hi from ends]
  exact gap

theorem Layout.gap_two (ok : Layout padded s (front ++ c :: d :: back)) :
    Gap padded s front back c.address d.stop ∧ d.address = c.stop := by
  have whole : Layout padded s (front ++ ([c, d] ++ back)) := ok
  obtain ⟨lo, hi, gap, begins, next, ends⟩ := whole.gap
  rw [begins, show d.stop = hi from ends]
  exact ⟨gap, next⟩

theorem Layout.ok (ok : Layout padded s (front ++ c :: back)) : CellOk padded s c :=
  ok.cell c (List.mem_append_right _ List.mem_cons_self)

theorem Gap.bounds (gap : Gap padded s front back lo hi) : expHeapArea ≤ lo ∧ hi ≤ expHeapEnd := by
  have low := tiles_le cells_forward gap.before
  have high := tiles_le cells_forward gap.after
  omega

theorem Gap.away (gap : Gap padded s front back lo hi) (member : d ∈ front ++ back) : d.address < lo ∨ hi ≤ d.address := by
  have here := cells_forward d
  have outside := tiles_outside cells_forward gap.before gap.after member
  omega

/-- A block that starts with the gap is none of those around it. -/
theorem Gap.around (gap : Gap padded s front back c.address hi) (room : c.address < hi) (member : d ∈ front ++ back) :
    d ≠ c := by
  rintro rfl
  have outside := gap.away member
  omega

theorem Gap.fill (gap : Gap padded s front back lo hi) (mid : List Cell) (new : Tiles Cell.address Cell.stop lo mid hi)
    (same : SameOutside s s' lo hi) (fresh : ∀ c ∈ mid, CellOk padded s' c)
    (order : Ring s'.memoryOrderList expMemoryOrderBlockList ((front ++ (mid ++ back)).map Cell.address))
    (listed : Listed s'.list (FreeAt (front ++ (mid ++ back))) (BusyAt (front ++ (mid ++ back)))) :
    Layout padded s' (front ++ (mid ++ back)) := by
  obtain ⟨tiled, cell⟩ := cells_replace gap.before new gap.after same gap.kept fresh
  exact ⟨tiled, cell, order, listed⟩

theorem freeAt_middle (mid : List Cell) {x : Nat} :
    FreeAt (front ++ (mid ++ back)) x ↔ FreeAt mid x ∨ FreeAt (front ++ back) x := by
  simp only [FreeAt, List.mem_append, or_and_right, exists_or]
  exact or_left_comm

theorem busyAt_middle (mid : List Cell) {x : Nat} :
    BusyAt (front ++ (mid ++ back)) x ↔ BusyAt mid x ∨ BusyAt (front ++ back) x := by
  simp only [BusyAt, List.mem_append, or_and_right, exists_or]
  exact or_left_comm

theorem freeAt_one {x : Nat} : FreeAt [c] x ↔ x = c.address ∧ c.isFree := by
  simp only [FreeAt, List.mem_singleton, exists_eq_left, eq_comm (a := x)]

theorem busyAt_one {x : Nat} : BusyAt [c] x ↔ x = c.address ∧ ¬c.isFree := by
  simp only [BusyAt, List.mem_singleton, exists_eq_left, eq_comm (a := x)]

theorem freeAt_two {x : Nat} : FreeAt [c, d] x ↔ x = c.address ∧ c.isFree ∨ x = d.address ∧ d.isFree := by
  have pair : FreeAt [c, d] x ↔ FreeAt [c] x ∨ FreeAt [d] x := by
    simp only [FreeAt, List.mem_cons, List.not_mem_nil, or_false, or_and_right, exists_or]
  rw [pair, freeAt_one, freeAt_one]

theorem busyAt_two {x : Nat} : BusyAt [c, d] x ↔ x = c.address ∧ ¬c.isFree ∨ x = d.address ∧ ¬d.isFree := by
  have pair : BusyAt [c, d] x ↔ BusyAt [c] x ∨ BusyAt [d] x := by
    simp only [BusyAt, List.mem_cons, List.not_mem_nil, or_false, or_and_right, exists_or]
  rw [pair, busyAt_one, busyAt_one]

theorem Gap.freeAway (gap : Gap padded s front back lo hi) {x : Nat} (free : FreeAt (front ++ back) x) : x < lo ∨ hi ≤ x := by
  obtain ⟨d, member, rfl, _⟩ := free
  exact gap.away member

theorem Gap.busyAway (gap : Gap padded s front back lo hi) {x : Nat} (busy : BusyAt (front ++ back) x) : x < lo ∨ hi ≤ x := by
  obtain ⟨d, member, rfl, _⟩ := busy
  exact gap.away member

end gap

section layout

variable {s : Heap} {cells : List Cell} {c : Cell}

theorem Layout.bounds (ok : Layout padded s cells) (member : c ∈ cells) : expHeapArea ≤ c.address ∧ c.stop ≤ expHeapEnd :=
  tiles_mem cells_forward ok.tiled member

theorem Layout.size_lt (ok : Layout padded s cells) (member : c ∈ cells) : c.block.size.toNat < 0x100000 := by
  have bounds := ok.bounds member
  unfold Cell.stop expHeapEnd expHeapSize at bounds
  omega

theorem Layout.apart (ok : Layout padded s cells) : ListsApart (FreeAt cells) (BusyAt cells) := by
  constructor
  · rintro x ⟨c, member, rfl, _⟩
    have bounds := ok.bounds member
    unfold expHeapArea at bounds
    omega
  · rintro x ⟨c, member, rfl, _⟩
    have bounds := ok.bounds member
    unfold expHeapArea at bounds
    omega
  · rintro x ⟨c, member, rfl, free⟩ ⟨d, member', together, busy⟩
    rw [tiles_inj cells_forward ok.tiled member member' together.symm] at free
    exact busy free

theorem Layout.length_lt (ok : Layout padded s cells) : cells.length < heapBlocks := by
  have spread : ∀ {cells : List Cell} {lo hi : Nat}, Tiles Cell.address Cell.stop lo cells hi →
      lo + 32 * cells.length ≤ hi := by
    intro cells
    induction cells with
    | nil => exact fun tiles => Nat.le_of_eq tiles
    | cons c cells ih =>
      intro lo hi tiles
      obtain ⟨begins, rest⟩ := tiles
      have tail := ih rest
      unfold Cell.stop at tail
      rw [List.length_cons]
      omega
  have room := spread ok.tiled
  unfold expHeapEnd expHeapSize at room
  unfold heapBlocks
  omega

theorem Layout.disjoint (ok : Layout padded s cells) {d : Cell} (one : c ∈ cells) (other : d ∈ cells) (ne : d ≠ c) :
    d.stop ≤ c.address ∨ c.stop ≤ d.address := by
  obtain ⟨front, back, rfl⟩ := List.append_of_mem one
  have gap := ok.gap_one
  apply tiles_outside cells_forward gap.before gap.after
  rcases List.mem_append.mp other with inFront | here
  · exact List.mem_append_left _ inFront
  · exact List.mem_append_right _ ((List.mem_cons.mp here).resolve_left ne)

/-- A write to the data of a block in use, in front of the padding if that is to stay. -/
theorem Layout.write (ok : Layout padded s cells) (member : c ∈ cells) (busy : ¬c.isFree) {s' : Heap} {lo hi : Nat}
    (same : SameOutside s s' lo hi) (low : c.address + 32 ≤ lo) (high : hi ≤ c.stop)
    (clear : padded → hi ≤ c.stop - c.block.paddingSize.toNat) (list : s'.list = s.list)
    (order : s'.memoryOrderList = s.memoryOrderList) : Layout padded s' cells := by
  refine ⟨ok.tiled, fun d inside => ?_, order ▸ ok.order, list ▸ ok.listed⟩
  by_cases here : d = c
  · subst here
    have cell := ok.cell d inside
    rcases cell.kind with ⟨free, _⟩ | ⟨type, room, pattern⟩
    · exact absurd free busy
    · refine ⟨?_, cell.sealed, ?_, .inr ⟨type, room, fun intact x above below => ?_⟩⟩
      · rw [same.block d.address (.inl low)]
        exact cell.here
      · rw [same.cookie]
        exact cell.cookie
      · have behind := clear intact
        rw [same.byte x (by omega)]
        exact pattern intact x above below
  · have apart := ok.disjoint member inside here
    exact (ok.cell d inside).frame same (by omega)

end layout

/-- Two free blocks do not follow each other. -/
def Merged (cells : List Cell) : Prop := cells.IsChain fun c d => ¬(c.isFree ∧ d.isFree)

theorem merged_middle {front back : List Cell} {c : Cell} : Merged (front ++ c :: back) ↔
    Merged front ∧ Merged back ∧ (∀ x ∈ front.getLast?, ¬(x.isFree ∧ c.isFree)) ∧
      ∀ y ∈ back.head?, ¬(c.isFree ∧ y.isFree) := by
  unfold Merged
  rw [List.isChain_append, List.isChain_cons]
  simp only [List.head?_cons, Option.mem_some_iff, forall_eq']
  grind

/-- The blocks in use. -/
def Busy (cells : List Cell) (d : Cell) : Prop := d ∈ cells ∧ ¬d.isFree

structure Sound (padded : Prop) (s : Heap) (cells : List Cell) : Prop where
  layout : Layout padded s cells
  merged : Merged cells

section sizes

theorem clearLow_eq (x : BitVec 32) : x &&& ~~~(15 : BitVec 32) = (x >>> 4) <<< 4 := by
  apply BitVec.eq_of_getLsbD_eq
  intro i inside
  have low : (15 : BitVec 32).getLsbD i = decide (i < 4) := by
    revert i
    decide
  rw [BitVec.getLsbD_and, BitVec.getLsbD_not, BitVec.getLsbD_shiftLeft, BitVec.getLsbD_ushiftRight, low]
  by_cases field : i < 4
  · simp [field]
  · have index : 4 + (i - 4) = i := by omega
    simp [field, inside, index]

theorem low_toNat (x : BitVec 32) : (x &&& 15).toNat = x.toNat % 16 := by
  rw [BitVec.toNat_and]
  exact Nat.and_two_pow_sub_one_eq_mod x.toNat 4

theorem alignedUnits_toNat {size : BitVec 32} (small : size < 0xFFFFFFF1) :
    (alignedUnits size).toNat = (size.toNat + 15) / 16 := by
  have below : size.toNat < 0xFFFFFFF1 := small
  have cleared : ((size >>> 4) <<< 4).toNat = size.toNat / 16 * 16 := by
    rw [BitVec.toNat_shiftLeft, BitVec.toNat_ushiftRight, Nat.shiftRight_eq_div_pow, Nat.shiftLeft_eq]
    omega
  have low := low_toNat size
  unfold alignedUnits
  rw [BitVec.toNat_ushiftRight, Nat.shiftRight_eq_div_pow]
  split
  · rename_i odd
    have some : (size &&& 15).toNat ≠ 0 := fun none => odd (BitVec.eq_of_toNat_eq none)
    rw [clearLow_eq, BitVec.toNat_add, cleared]
    change (size.toNat / 16 * 16 + 16) % 4294967296 / 16 = _
    omega
  · rename_i even
    have none : (size &&& 15).toNat = 0 := by
      rw [Decidable.not_not.mp even]
      rfl
    omega

/-- The padding of a block that has a few bytes to spare. -/
theorem padding_toNat {size units : BitVec 32} (below : size.toNat ≤ 16 * units.toNat)
    (spare : 16 * units.toNat - size.toNat < 256) :
    ((units * 16 - size).setWidth 8).toNat = 16 * units.toNat - size.toNat := by
  rw [BitVec.toNat_setWidth, BitVec.toNat_sub, BitVec.toNat_mul]
  change (4294967296 - size.toNat + units.toNat * 16 % 4294967296) % 4294967296 % 256 = _
  omega

end sizes

section edits

variable {s : Heap} {a : Nat} {b : EheapBlock}

theorem setBlock_self (s : Heap) (a : Nat) (b : EheapBlock) : (s.setBlock a b).block a = some b := if_pos rfl

/-- The padding is written inside the data of its block, and nothing else is. -/
theorem writeAllocPadding_spec (here : s.block a = some b) (inside : b.paddingSize.toNat ≤ 16 * b.size.toNat) :
    ∃ s', s.writeAllocPadding a = some s' ∧ s'.block a = some b ∧
      Filled s'.byte (a + 32 + 16 * b.size.toNat - b.paddingSize.toNat) (a + 32 + 16 * b.size.toNat) allocatedPadding ∧
      SameOutside s s' (a + 32) (a + 32 + 16 * b.size.toNat) ∧ s'.list = s.list ∧
      s'.memoryOrderList = s.memoryOrderList ∧
      ∀ x, x < a + 32 + 16 * b.size.toNat - b.paddingSize.toNat → s'.byte x = s.byte x := by
  let dest := a + 32 + 16 * b.size.toNat - b.paddingSize.toNat
  have written : s.writeAllocPadding a = some (s.memset dest allocatedPadding b.paddingSize.toNat) := by
    simp only [Heap.writeAllocPadding, here, Option.map_some, dest]
  have stretch := same_memset s dest allocatedPadding b.paddingSize.toNat
  have same : SameOutside s (s.memset dest allocatedPadding b.paddingSize.toNat) (a + 32) (a + 32 + 16 * b.size.toNat) :=
    stretch.wider (by omega) (by omega)
  refine ⟨_, written, ?_, ?_, same, rfl, rfl, fun x below => stretch.byte x (.inl below)⟩
  · rw [same.block a (by omega)]
    exact here
  · intro x above below
    change fill s.byte dest (dest + b.paddingSize.toNat) (fun _ => allocatedPadding) x = allocatedPadding
    exact fill_inside above (by omega)

theorem writeFreedPadding_spec (here : s.block a = some b) :
    ∃ s', s.writeFreedPadding a = some s' ∧ s'.block a = some b ∧
      Filled s'.byte (a + 32) (a + 32 + 16 * b.size.toNat) freedPadding ∧
      SameOutside s s' (a + 32) (a + 32 + 16 * b.size.toNat) ∧ s'.list = s.list ∧
      s'.memoryOrderList = s.memoryOrderList := by
  have written : s.writeFreedPadding a = some (s.memset (a + 32) freedPadding (16 * b.size.toNat)) := by
    simp only [Heap.writeFreedPadding, here, Option.map_some]
  have same := same_memset s (a + 32) freedPadding (16 * b.size.toNat)
  refine ⟨_, written, ?_, ?_, same, rfl, rfl⟩
  · rw [same.block a (by omega)]
    exact here
  · intro x above below
    change fill s.byte (a + 32) (a + 32 + 16 * b.size.toNat) (fun _ => freedPadding) x = freedPadding
    exact fill_inside above below

/-- The header of a busy block is set and its padding written. -/
theorem busy_spec (s : Heap) (c : Cell) (sealed : c.block = c.block.recalculated c.address)
    (cookie : c.block.cookie = s.expHeapCookie) (busy : c.block.blockType = heapBlockAllocated)
    (inside : c.block.paddingSize.toNat ≤ 16 * c.block.size.toNat) :
    ∃ s', (s.setBlock c.address c.block).writeAllocPadding c.address = some s' ∧ CellOk True s' c ∧
      SameOutside s s' c.address c.stop ∧ s'.list = s.list ∧ s'.memoryOrderList = s.memoryOrderList ∧
      ∀ x, x < c.stop - c.block.paddingSize.toNat → s'.byte x = s.byte x := by
  obtain ⟨s', written, here, filled, same, list, order, kept⟩ :=
    writeAllocPadding_spec (setBlock_self s c.address c.block) inside
  have header := (same_setBlock s c.address c.block).wider (Nat.le_refl _) (by unfold Cell.stop; omega :
    c.address + 32 ≤ c.stop)
  have data : SameOutside (s.setBlock c.address c.block) s' c.address c.stop := same.wider (by omega) (Nat.le_refl _)
  refine ⟨s', written, ⟨here, sealed, ?_, .inr ⟨.inl busy, inside, fun _ => filled⟩⟩, header.trans data, list, order, kept⟩
  rw [data.cookie]
  exact cookie

end edits

/-- The block at `c`, cut to some units, holds an allocation. -/
def Cell.allocated (c : Cell) (units size : BitVec 32) : Cell where
  address := c.address
  block := EheapBlock.recalculated { c.block with
    size := units, blockType := heapBlockAllocated, paddingSize := (units * 16 - size).setWidth 8 } c.address

/-- A free block made in the arena. -/
def newCell (s : Heap) (a : Nat) (units : BitVec 32) : Cell where
  address := a
  block := EheapBlock.recalculated
    { magic1 := 0, size := units, blockType := heapBlockFree, paddingSize := s.byte (a + 17),
      cookie := s.expHeapCookie, magic2 := 0 } a

theorem allocated_busy (c : Cell) (units size : BitVec 32) : ¬(c.allocated units size).isFree := Cell.in_use (.inl rfl)

end Gr8os.Ex
