import Gr8os.Ex.Heap
import Gr8os.Lib.Tiling

/-! The blocks of a heap in memory order: how they fill the arena, and what each operation on a header, on a
stretch of bytes or on a list leaves alone. -/
namespace Gr8os.Ex

open Intrusive Ke Bytes Tiling

/-- A block where it lies. -/
structure Cell where
  address : Nat
  block : EheapBlock

def Cell.stop (c : Cell) : Nat := c.address + 32 + 16 * c.block.size.toNat

def Cell.isFree (c : Cell) : Prop := c.block.blockType = heapBlockFree

theorem Cell.in_use {c : Cell}
    (kind : c.block.blockType = heapBlockAllocated ∨ c.block.blockType = heapBlockLocked) : ¬c.isFree := by
  intro free
  have type : c.block.blockType = heapBlockFree := free
  rw [type] at kind
  exact absurd kind (by decide)

def Filled (byte : Buffer) (start stop : Nat) (value : BitVec 8) : Prop :=
  ∀ x, start ≤ x → x < stop → byte x = value

theorem filledWith_iff {byte : Buffer} {start length : Nat} {value : BitVec 8} :
    filledWith byte start length value = true ↔ Filled byte start (start + length) value := by
  simp only [filledWith, List.all_eq_true, List.mem_range, decide_eq_true_iff]
  constructor
  · intro all x above below
    have here := all (x - start) (by omega)
    rwa [Nat.add_sub_cancel' above] at here
  · intro all i inside
    exact all (start + i) (by omega) (by omega)

/-- What ExpCheckBlockValid looks at, and that the padding is inside the block. The padding is there if no
client writes to it. -/
structure CellOk (padded : Prop) (s : Heap) (c : Cell) : Prop where
  here : s.block c.address = some c.block
  sealed : c.block = c.block.recalculated c.address
  cookie : c.block.cookie = s.expHeapCookie
  kind : c.isFree ∧ Filled s.byte (c.address + 32) c.stop freedPadding ∨
    (c.block.blockType = heapBlockAllocated ∨ c.block.blockType = heapBlockLocked) ∧
      c.block.paddingSize.toNat ≤ 16 * c.block.size.toNat ∧
      (padded → Filled s.byte (c.stop - c.block.paddingSize.toNat) c.stop allocatedPadding)

variable {padded : Prop}

theorem CellOk.valid {s : Heap} {c : Cell} (ok : CellOk padded s c)
    (intact : padded ∨ c.block.blockType ≠ heapBlockAllocated) : expCheckBlockValid s c.address = true := by
  have magic1 : c.block.magic1 = expChecksumBlock c.address c.block := congrArg EheapBlock.magic1 ok.sealed
  have magic2 : c.block.magic2 = expChecksumBlock c.address c.block := congrArg EheapBlock.magic2 ok.sealed
  simp only [expCheckBlockValid, ok.here, ok.cookie, magic1, magic2, decide_true, Bool.true_and]
  rcases ok.kind with ⟨free, blank⟩ | ⟨busy, inside, pattern⟩
  · have other : c.block.blockType ≠ heapBlockAllocated := fun allocated => Cell.in_use (.inl allocated) free
    rw [if_neg other]
    split
    · exact filledWith_iff.mpr blank
    · rfl
  · split
    · apply filledWith_iff.mpr
      have stop : c.address + 32 + 16 * c.block.size.toNat - c.block.paddingSize.toNat + c.block.paddingSize.toNat =
          c.stop := by
        unfold Cell.stop
        omega
      rename_i allocated
      rw [stop]
      exact pattern (intact.resolve_right fun other => other allocated)
    · rename_i locked
      have other : ¬(c.block.blockType = heapBlockFree ∧ c.block.size < 65536) := by
        rintro ⟨free, _⟩
        exact Cell.in_use busy free
      rw [if_neg other]

theorem CellOk.blank {s : Heap} {c : Cell} (ok : CellOk padded s c) (free : c.isFree) :
    Filled s.byte (c.address + 32) c.stop freedPadding := by
  rcases ok.kind with ⟨_, blank⟩ | ⟨busy, _⟩
  · exact blank
  · exact absurd free (Cell.in_use busy)

/-- A block with its padding is right whether the padding is to stay or not. -/
theorem CellOk.any {s : Heap} {c : Cell} (ok : CellOk True s c) : CellOk padded s c where
  here := ok.here
  sealed := ok.sealed
  cookie := ok.cookie
  kind := ok.kind.imp_right fun busy => ⟨busy.1, busy.2.1, fun _ => busy.2.2 trivial⟩

/-- Bytes and headers outside a stretch are what they were. -/
structure SameOutside (s s' : Heap) (lo hi : Nat) : Prop where
  byte : ∀ x, x < lo ∨ hi ≤ x → s'.byte x = s.byte x
  block : ∀ a, a + 32 ≤ lo ∨ hi ≤ a → s'.block a = s.block a
  cookie : s'.expHeapCookie = s.expHeapCookie

section same

variable {s s' s'' : Heap} {lo hi : Nat}

theorem SameOutside.of_eq (byte : s'.byte = s.byte) (block : s'.block = s.block)
    (cookie : s'.expHeapCookie = s.expHeapCookie) : SameOutside s s' lo hi :=
  ⟨fun x _ => congrFun byte x, fun a _ => congrFun block a, cookie⟩

theorem SameOutside.refl (s : Heap) : SameOutside s s lo hi := .of_eq rfl rfl rfl

theorem SameOutside.trans (first : SameOutside s s' lo hi) (second : SameOutside s' s'' lo hi) :
    SameOutside s s'' lo hi where
  byte x outside := (second.byte x outside).trans (first.byte x outside)
  block a outside := (second.block a outside).trans (first.block a outside)
  cookie := second.cookie.trans first.cookie

theorem SameOutside.wider {lo' hi' : Nat} (same : SameOutside s s' lo hi) (below : lo' ≤ lo) (above : hi ≤ hi') :
    SameOutside s s' lo' hi' where
  byte x outside := same.byte x (by omega)
  block a outside := same.block a (by omega)
  cookie := same.cookie

theorem same_memset (s : Heap) (dest : Nat) (value : BitVec 8) (length : Nat) :
    SameOutside s (s.memset dest value length) dest (dest + length) where
  byte x outside := by
    change fill s.byte dest (dest + length) (fun _ => value) x = s.byte x
    exact fill_outside outside
  block a outside := if_neg (by omega)
  cookie := rfl

theorem same_memcpy (s : Heap) (dest src length : Nat) : SameOutside s (s.memcpy dest src length) dest (dest + length) where
  byte x outside := memcpy_outside outside
  block a outside := if_neg (by omega)
  cookie := rfl

theorem same_setBlock (s : Heap) (a : Nat) (b : EheapBlock) : SameOutside s (s.setBlock a b) a (a + 32) where
  byte _ _ := rfl
  block p outside := if_neg (by omega)
  cookie := rfl

theorem CellOk.frame {c : Cell} (ok : CellOk padded s c) (same : SameOutside s s' lo hi)
    (outside : c.stop ≤ lo ∨ hi ≤ c.address) : CellOk padded s' c := by
  unfold Cell.stop at outside
  have bytes : ∀ x, c.address ≤ x → x < c.stop → s'.byte x = s.byte x := by
    intro x above below
    unfold Cell.stop at below
    exact same.byte x (by omega)
  constructor
  · rw [same.block c.address (by omega)]
    exact ok.here
  · exact ok.sealed
  · rw [same.cookie]
    exact ok.cookie
  · rcases ok.kind with ⟨free, blank⟩ | ⟨busy, inside, pattern⟩
    · left
      refine ⟨free, fun x above below => ?_⟩
      rw [bytes x (by omega) below]
      exact blank x above below
    · right
      refine ⟨busy, inside, fun intact x above below => ?_⟩
      have data : c.address ≤ x := by
        unfold Cell.stop at above
        omega
      rw [bytes x data below]
      exact pattern intact x above below

end same

theorem cells_forward : Forward Cell.address Cell.stop := by
  intro c
  unfold Cell.stop
  omega

/-- A stretch of blocks is replaced by others that fill it. -/
theorem cells_replace {s s' : Heap} {front mid back : List Cell} {base lo hi top : Nat}
    (before : Tiles Cell.address Cell.stop base front lo) (new : Tiles Cell.address Cell.stop lo mid hi)
    (after : Tiles Cell.address Cell.stop hi back top) (same : SameOutside s s' lo hi)
    (old : ∀ c ∈ front ++ back, CellOk padded s c) (fresh : ∀ c ∈ mid, CellOk padded s' c) :
    Tiles Cell.address Cell.stop base (front ++ (mid ++ back)) top ∧ ∀ c ∈ front ++ (mid ++ back), CellOk padded s' c := by
  constructor
  · exact tiles_append.mpr ⟨lo, before, tiles_append.mpr ⟨hi, new, after⟩⟩
  · intro c member
    have kept : ∀ c ∈ front ++ back, CellOk padded s' c := by
      intro c member
      exact (old c member).frame same (tiles_outside cells_forward before after member)
    rcases List.mem_append.mp member with inFront | member
    · exact kept c (List.mem_append_left _ inFront)
    · rcases List.mem_append.mp member with inMid | inBack
      · exact fresh c inMid
      · exact kept c (List.mem_append_right _ inBack)

/-- The blocks on the free list and the blocks on the allocated list. -/
def Listed (l : Links Nat) (free busy : Nat → Prop) : Prop :=
  ∃ frees busies, Ring l expFreeBlockList frees ∧ Ring l expAllocatedBlockList busies ∧
    (∀ a, a ∈ frees ↔ free a) ∧ ∀ a, a ∈ busies ↔ busy a

/-- Two sets of blocks without a common one, none of them a list head. -/
structure ListsApart (free busy : Nat → Prop) : Prop where
  frees : ∀ a, free a → 2 < a
  busies : ∀ a, busy a → 2 < a
  apart : ∀ a, free a → ¬busy a

section lists

variable {l : Links Nat} {free busy : Nat → Prop} {a e : Nat}

theorem Listed.congr {free' busy' : Nat → Prop} (listed : Listed l free busy) (frees : ∀ a, free a ↔ free' a)
    (busies : ∀ a, busy a ↔ busy' a) : Listed l free' busy' := by
  obtain ⟨fs, bs, freeRing, busyRing, inFree, inBusy⟩ := listed
  exact ⟨fs, bs, freeRing, busyRing, fun a => (inFree a).trans (frees a), fun a => (inBusy a).trans (busies a)⟩

theorem disjoint_rings (apart : ListsApart free busy) {fs bs : List Nat} (inFree : ∀ a, a ∈ fs ↔ free a)
    (inBusy : ∀ a, a ∈ bs ↔ busy a) : ∀ x ∈ expAllocatedBlockList :: bs, x ∉ expFreeBlockList :: fs := by
  intro x one other
  have heads : expAllocatedBlockList = 1 ∧ expFreeBlockList = 0 := ⟨rfl, rfl⟩
  rcases List.mem_cons.mp one with isHead | inBusies <;> rcases List.mem_cons.mp other with isHead' | inFrees
  · omega
  · have above := apart.frees x ((inFree x).mp inFrees)
    omega
  · have above := apart.busies x ((inBusy x).mp inBusies)
    omega
  · exact apart.apart x ((inFree x).mp inFrees) ((inBusy x).mp inBusies)

theorem mem_without {xs ys : List Nat} (distinct : (xs ++ a :: ys).Nodup) (x : Nat) :
    x ∈ xs ++ ys ↔ x ∈ xs ++ a :: ys ∧ x ≠ a := by
  have outside : a ∉ xs ++ ys := (List.nodup_cons.mp (List.perm_middle.nodup_iff.mp distinct)).1
  simp only [List.mem_append, List.mem_cons]
  simp only [List.mem_append] at outside
  constructor
  · intro member
    refine ⟨by grind, ?_⟩
    rintro rfl
    exact outside member
  · grind

theorem Listed.allocate (listed : Listed l free busy) (apart : ListsApart free busy) (isFree : free a) :
    Listed (insertTailList (removeEntryList l a) expAllocatedBlockList a) (fun x => free x ∧ x ≠ a)
      fun x => busy x ∨ x = a := by
  obtain ⟨fs, bs, freeRing, busyRing, inFree, inBusy⟩ := listed
  have disjoint := disjoint_rings apart inFree inBusy
  obtain ⟨xs, ys, rfl⟩ := List.append_of_mem ((inFree a).mpr isFree)
  obtain ⟨left, right⟩ := rings_move_tail freeRing busyRing disjoint
  refine ⟨xs ++ ys, bs ++ [a], left, right, fun x => ?_, fun x => ?_⟩
  · rw [mem_without (List.nodup_cons.mp freeRing.1).2, inFree]
  · rw [List.mem_append, List.mem_singleton, inBusy]

theorem Listed.release (listed : Listed l free busy) (apart : ListsApart free busy) (isBusy : busy a) :
    Listed (insertTailList (removeEntryList l a) expFreeBlockList a) (fun x => free x ∨ x = a)
      fun x => busy x ∧ x ≠ a := by
  obtain ⟨fs, bs, freeRing, busyRing, inFree, inBusy⟩ := listed
  have disjoint := disjoint_rings apart inFree inBusy
  obtain ⟨xs, ys, rfl⟩ := List.append_of_mem ((inBusy a).mpr isBusy)
  obtain ⟨left, right⟩ := rings_move_tail busyRing freeRing fun x one other => disjoint x other one
  refine ⟨fs ++ [a], xs ++ ys, right, left, fun x => ?_, fun x => ?_⟩
  · rw [List.mem_append, List.mem_singleton, inFree]
  · rw [mem_without (List.nodup_cons.mp busyRing.1).2, inBusy]

theorem Listed.add (listed : Listed l free busy) (apart : ListsApart free busy) (high : 2 < e) (notFree : ¬free e)
    (notBusy : ¬busy e) : Listed (insertTailList l expFreeBlockList e) (fun x => free x ∨ x = e) busy := by
  obtain ⟨fs, bs, freeRing, busyRing, inFree, inBusy⟩ := listed
  have disjoint := disjoint_rings apart inFree inBusy
  have outFree : e ∉ expFreeBlockList :: fs := by
    intro member
    rcases List.mem_cons.mp member with isHead | inside
    · simp only [expFreeBlockList] at isHead
      omega
    · exact notFree ((inFree e).mp inside)
  have outBusy : e ∉ expAllocatedBlockList :: bs := by
    intro member
    rcases List.mem_cons.mp member with isHead | inside
    · simp only [expAllocatedBlockList] at isHead
      omega
    · exact notBusy ((inBusy e).mp inside)
  refine ⟨fs ++ [e], bs, ring_insertTail freeRing outFree, ring_insertBefore_frame freeRing busyRing disjoint outBusy,
    fun x => ?_, inBusy⟩
  rw [List.mem_append, List.mem_singleton, inFree]

theorem Listed.drop (listed : Listed l free busy) (apart : ListsApart free busy) (isFree : free a) :
    Listed (removeEntryList l a) (fun x => free x ∧ x ≠ a) busy := by
  obtain ⟨fs, bs, freeRing, busyRing, inFree, inBusy⟩ := listed
  have disjoint := disjoint_rings apart inFree inBusy
  have member := (inFree a).mpr isFree
  obtain ⟨xs, ys, rfl⟩ := List.append_of_mem member
  refine ⟨xs ++ ys, bs, ring_unlink freeRing, ring_unlink_frame freeRing member busyRing disjoint, fun x => ?_, inBusy⟩
  rw [mem_without (List.nodup_cons.mp freeRing.1).2, inFree]

theorem moveEntry_eq {h : Nat} {xs ys : List Nat} (ring : Ring l h (xs ++ a :: ys)) {move : Nat → Nat}
    (fresh : move a ∉ h :: (xs ++ a :: ys)) :
    moveEntry l a move = (l.unlink a).insertAfter (l.blink a) (move a) := by
  obtain ⟨forth, back, previous, next⟩ := ring_links ring
  have distinct := ring.1
  have notPrevious : a ≠ l.blink a := by
    intro same
    rw [← same] at previous
    have middle := (@List.perm_middle _ a (h :: xs) ys).nodup_iff.mp distinct
    exact (List.nodup_cons.mp middle).1 (List.mem_append_left _ previous)
  have notNext : a ≠ l.flink a := by
    intro same
    rw [← same] at next
    have middle := (@List.perm_middle _ a (h :: xs) ys).nodup_iff.mp distinct
    apply (List.nodup_cons.mp middle).1
    rcases List.mem_append.mp next with behind | atHead
    · exact List.mem_append_right _ behind
    · rw [List.mem_singleton.mp atHead]
      exact List.mem_append_left _ List.mem_cons_self
  have offPrevious : move a ≠ l.blink a := by
    intro same
    apply fresh
    rw [same]
    rcases List.mem_cons.mp previous with atHead | inFront
    · exact List.mem_cons.mpr (.inl atHead)
    · exact List.mem_cons_of_mem _ (List.mem_append_left _ inFront)
  have offNext : move a ≠ l.flink a := by
    intro same
    apply fresh
    rw [same]
    rcases List.mem_append.mp next with behind | atHead
    · exact List.mem_cons_of_mem _ (List.mem_append_right _ (List.mem_cons_of_mem _ behind))
    · exact List.mem_cons.mpr (.inl (List.mem_singleton.mp atHead))
  have flinks : (moveEntry l a move).flink = ((l.unlink a).insertAfter (l.blink a) (move a)).flink := by
    funext x
    simp only [moveEntry, setFlink_flink, setBlink_flink, setFlink_blink, insertAfter_flink, unlink_flink, forth,
      if_neg notPrevious]
    split
    · rename_i atNew
      rw [if_neg (atNew ▸ offPrevious), if_true]
    · split
      · rfl
      · rfl
  have blinks : (moveEntry l a move).blink = ((l.unlink a).insertAfter (l.blink a) (move a)).blink := by
    funext x
    simp only [moveEntry, setFlink_flink, setBlink_flink, setFlink_blink, setBlink_blink, insertAfter_blink,
      unlink_blink, unlink_flink, forth, back, if_neg notPrevious, if_neg notNext, if_true]
    by_cases atNew : x = move a
    · rw [if_pos atNew, atNew, if_neg offNext, if_pos rfl]
    · by_cases atNext : x = l.flink a
      · rw [if_neg atNew, if_pos atNext, if_pos atNext]
      · rw [if_neg atNew, if_neg atNext, if_neg atNext, if_neg atNew, if_neg atNext]
  cases after : moveEntry l a move with
  | mk flink blink =>
    rw [after] at flinks blinks
    simp only at flinks blinks
    rw [flinks, blinks]

theorem Listed.replace (listed : Listed l free busy) (apart : ListsApart free busy) (isFree : free a)
    {move : Nat → Nat} (high : 2 < move a) (notFree : ¬free (move a)) (notBusy : ¬busy (move a)) :
    Listed (moveEntry l a move) (fun x => free x ∧ x ≠ a ∨ x = move a) busy := by
  obtain ⟨fs, bs, freeRing, busyRing, inFree, inBusy⟩ := listed
  have disjoint := disjoint_rings apart inFree inBusy
  have outFree : move a ∉ expFreeBlockList :: fs := by
    intro member
    rcases List.mem_cons.mp member with isHead | inside
    · simp only [expFreeBlockList] at isHead
      omega
    · exact notFree ((inFree _).mp inside)
  have outBusy : move a ∉ expAllocatedBlockList :: bs := by
    intro member
    rcases List.mem_cons.mp member with isHead | inside
    · simp only [expAllocatedBlockList] at isHead
      omega
    · exact notBusy ((inBusy _).mp inside)
  obtain ⟨xs, ys, rfl⟩ := List.append_of_mem ((inFree a).mpr isFree)
  rw [moveEntry_eq freeRing outFree]
  refine ⟨xs ++ move a :: ys, bs, ring_replace freeRing outFree, ring_replace_frame freeRing busyRing disjoint outBusy,
    fun x => ?_, inBusy⟩
  have others := mem_without (List.nodup_cons.mp freeRing.1).2 x
  rw [inFree] at others
  simp only [← others, List.mem_append, List.mem_cons]
  grind

end lists

end Gr8os.Ex
