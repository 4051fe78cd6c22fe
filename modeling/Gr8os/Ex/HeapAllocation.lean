import Gr8os.Ex.HeapLayout

/-! Allocation: the free block that is chosen is taken whole, or split. -/
namespace Gr8os.Ex

open Intrusive Ke Bytes Tiling

variable {padded : Prop}

section lists

variable {free busy : Nat → Prop} {a e : Nat}

theorem ListsApart.allocate (apart : ListsApart free busy) (isFree : free a) :
    ListsApart (fun x => free x ∧ x ≠ a) fun x => busy x ∨ x = a where
  frees x here := apart.frees x here.1
  busies x here := by
    rcases here with busy | rfl
    · exact apart.busies x busy
    · exact apart.frees x isFree
  apart x here there := by
    rcases there with busy | same
    · exact apart.apart x here.1 busy
    · exact here.2 same

variable {s : Heap} {front back : List Cell} {c : Cell} {hi : Nat}

theorem Gap.other (gap : Gap padded s front back c.address hi) (room : c.address < hi) {x : Nat} :
    (FreeAt (front ++ back) x → x ≠ c.address) ∧ (BusyAt (front ++ back) x → x ≠ c.address) := by
  constructor
  · intro free same
    have away := gap.freeAway free
    omega
  · intro busy same
    have away := gap.busyAway busy
    omega

theorem freeAt_cons {x : Nat} : FreeAt (front ++ c :: back) x ↔ (x = c.address ∧ c.isFree) ∨ FreeAt (front ++ back) x := by
  rw [← freeAt_one]
  exact freeAt_middle [c]

theorem busyAt_cons {x : Nat} : BusyAt (front ++ c :: back) x ↔ (x = c.address ∧ ¬c.isFree) ∨ BusyAt (front ++ back) x := by
  rw [← busyAt_one]
  exact busyAt_middle [c]

end lists

section allocate

variable {s : Heap} {front back : List Cell} {c : Cell} {size : BitVec 32}

/-- A place inside the arena that is no block's address. -/
theorem Layout.fresh (ok : Layout padded s (front ++ c :: back)) {e : Nat} (above : c.address < e) (below : e < c.stop) :
    2 < e ∧ ¬FreeAt (front ++ c :: back) e ∧ ¬BusyAt (front ++ c :: back) e ∧
      e ∉ expMemoryOrderBlockList :: (front ++ c :: back).map Cell.address := by
  have gap := ok.gap_one
  have bounds := gap.bounds
  have high : 2 < e := by
    unfold expHeapArea at bounds
    omega
  refine ⟨high, fun free => ?_, fun busy => ?_, fun member => ?_⟩
  · rcases freeAt_cons.mp free with ⟨same, _⟩ | other
    · omega
    · have away := gap.freeAway other
      omega
  · rcases busyAt_cons.mp busy with ⟨same, _⟩ | other
    · omega
    · have away := gap.busyAway other
      omega
  · rcases List.mem_cons.mp member with isHead | inside
    · unfold expMemoryOrderBlockList at isHead
      omega
    · obtain ⟨d, here, same⟩ := List.mem_map.mp inside
      rcases List.mem_append.mp here with inFront | here
      · have away := gap.away (List.mem_append_left back inFront)
        omega
      · rcases List.mem_cons.mp here with rfl | inBack
        · omega
        · have away := gap.away (List.mem_append_right front inBack)
          omega

theorem Layout.swap (ok : Layout padded s (front ++ c :: back)) {s' : Heap} {c' : Cell}
    (address : c'.address = c.address) (stop : c'.stop = c.stop) (same : SameOutside s s' c.address c.stop)
    (cellOk : CellOk padded s' c') (order : s'.memoryOrderList = s.memoryOrderList)
    (listed : Listed s'.list (FreeAt (front ++ c' :: back)) (BusyAt (front ++ c' :: back))) :
    Layout padded s' (front ++ c' :: back) := by
  apply ok.gap_one.fill [c'] ⟨address, stop⟩ same (List.forall_mem_singleton.mpr cellOk)
  · have ring := ok.order
    rw [List.map_append, List.map_cons] at ring
    rw [order, List.map_append, List.cons_append, List.map_cons, address]
    exact ring
  · exact listed

/-- A block in use is replaced by one on the same list. -/
theorem Layout.listed_busy (ok : Layout padded s (front ++ c :: back)) {s' : Heap} {c' : Cell}
    (address : c'.address = c.address) (busy : ¬c.isFree) (busy' : ¬c'.isFree) (list : s'.list = s.list) :
    Listed s'.list (FreeAt (front ++ c' :: back)) (BusyAt (front ++ c' :: back)) := by
  rw [list]
  apply ok.listed.congr
  · intro x
    simp only [freeAt_cons, address, busy, busy']
  · intro x
    simp only [busyAt_cons, address, busy, busy']

/-- What an allocation in a free block needs to know of the sizes. -/
structure Fits (c : Cell) (size : BitVec 32) : Prop where
  small : size < 0xFFFFFFF1
  units : alignedUnits size ≤ c.block.size

theorem allocated_padding {units : BitVec 32} (below : size.toNat ≤ 16 * units.toNat)
    (spare : 16 * units.toNat - size.toNat < 256) :
    size.toNat + (c.allocated units size).block.paddingSize.toNat = 16 * units.toNat := by
  have padding : (c.allocated units size).block.paddingSize.toNat = 16 * units.toNat - size.toNat :=
    padding_toNat below spare
  omega

theorem allocate_whole (ok : Layout padded s (front ++ c :: back)) (free : c.isFree) (fits : Fits c size)
    (whole : c.block.size - alignedUnits size ≤ 2) :
    ∃ s', expAllocateHeapInBlock s c.address size = some (c.address + 32, s') ∧
      Layout padded s' (front ++ c.allocated c.block.size size :: back) ∧
      size.toNat + (c.allocated c.block.size size).block.paddingSize.toNat = 16 * c.block.size.toNat ∧
      SameOutside s s' c.address c.stop := by
  have aligned := alignedUnits_toNat fits.small
  have units : (alignedUnits size).toNat ≤ c.block.size.toNat := fits.units
  have diff : (c.block.size - alignedUnits size).toNat ≤ 2 := whole
  rw [BitVec.toNat_sub_of_le fits.units] at diff
  have below : size.toNat ≤ 16 * c.block.size.toNat := by omega
  have sum := allocated_padding (c := c) below (by omega)
  have inside : (c.allocated c.block.size size).block.paddingSize.toNat ≤ 16 * c.block.size.toNat := by omega
  obtain ⟨t, written, cellOk, same, list, order, _⟩ :=
    busy_spec s (c.allocated c.block.size size) rfl ok.ok.cookie rfl inside
  have runs : expAllocateHeapInBlock s c.address size = some (c.address + 32, t.moveTo expAllocatedBlockList c.address) := by
    unfold expAllocateHeapInBlock
    rw [ok.ok.here, Option.bind_some]
    simp only
    rw [if_pos whole]
    exact congrArg (Option.map _) written
  have stretch : SameOutside s (t.moveTo expAllocatedBlockList c.address) c.address c.stop :=
    same.trans (.of_eq rfl rfl rfl)
  refine ⟨_, runs, ?_, sum, stretch⟩
  have others {x : Nat} := ok.gap_one.other (x := x) (cells_forward c)
  have moved : CellOk padded t (c.allocated c.block.size size) := cellOk.any
  have address : (c.allocated c.block.size size).address = c.address := rfl
  apply ok.swap address rfl stretch ⟨moved.here, moved.sealed, moved.cookie, moved.kind⟩ order
  have listed := ok.listed.allocate ok.apart (freeAt_cons.mpr (.inl ⟨rfl, free⟩))
  have busy := allocated_busy c c.block.size size
  change Listed (insertTailList (removeEntryList t.list c.address) expAllocatedBlockList c.address) _ _
  rw [list]
  apply listed.congr
  · intro x
    have other := others (x := x)
    simp only [freeAt_cons, address, free, busy]
    grind
  · intro x
    simp only [busyAt_cons, address, free, busy]
    grind

/-- Listing a new block behind another one in memory order. -/
theorem order_insert {l : Links Nat} {e : Nat}
    (ring : Ring l expMemoryOrderBlockList ((front ++ c :: back).map Cell.address))
    (fresh : e ∉ expMemoryOrderBlockList :: (front ++ c :: back).map Cell.address) {c' d : Cell}
    (same : c'.address = c.address) (there : d.address = e) :
    Ring (insertHeadList l c.address e) expMemoryOrderBlockList ((front ++ c' :: d :: back).map Cell.address) := by
  rw [List.map_append, List.map_cons] at ring fresh
  rw [List.map_append, List.map_cons, List.map_cons, same, there, insertHeadList_eq]
  exact ring_insertAfter ring fresh

theorem allocate_split (ok : Layout padded s (front ++ c :: back)) (free : c.isFree) (fits : Fits c size)
    (large : ¬c.block.size - alignedUnits size ≤ 2) :
    ∃ s' d, expAllocateHeapInBlock s c.address size = some (c.address + 32, s') ∧
      Layout padded s' (front ++ c.allocated (alignedUnits size) size :: d :: back) ∧ d.isFree ∧
      size.toNat + (c.allocated (alignedUnits size) size).block.paddingSize.toNat =
        16 * (alignedUnits size).toNat ∧ SameOutside s s' c.address c.stop := by
  have aligned := alignedUnits_toNat fits.small
  have units : (alignedUnits size).toNat ≤ c.block.size.toNat := fits.units
  have diff : 2 < (c.block.size - alignedUnits size).toNat := Nat.lt_of_not_ge large
  rw [BitVec.toNat_sub_of_le fits.units] at diff
  have rest : (c.block.size - alignedUnits size - 2).toNat = c.block.size.toNat - (alignedUnits size).toNat - 2 := by
    have parts := BitVec.toNat_sub_of_le fits.units
    have bound := c.block.size.isLt
    bv_omega
  have below : size.toNat ≤ 16 * (alignedUnits size).toNat := by omega
  have sum := allocated_padding (c := c) below (by omega)
  let c' := c.allocated (alignedUnits size) size
  have inside : c'.block.paddingSize.toNat ≤ 16 * (alignedUnits size).toNat := by
    have parts : size.toNat + c'.block.paddingSize.toNat = 16 * (alignedUnits size).toNat := sum
    omega
  obtain ⟨t, written, cellOk, same, list, order, _⟩ := busy_spec s c' rfl ok.ok.cookie rfl inside
  let next := c.address + 32 + 16 * (alignedUnits size).toNat
  let d := newCell t next (c.block.size - alignedUnits size - 2)
  let s' : Heap := { (t.moveTo expAllocatedBlockList c.address).setBlock next d.block with
    list := insertTailList (t.moveTo expAllocatedBlockList c.address).list expFreeBlockList next
    memoryOrderList := insertHeadList t.memoryOrderList c.address next }
  have runs : expAllocateHeapInBlock s c.address size = some (c.address + 32, s') := by
    unfold expAllocateHeapInBlock
    rw [ok.ok.here, Option.bind_some]
    simp only
    rw [if_neg large]
    exact congrArg (Option.map _) written
  have stop : c'.stop = next := rfl
  have stops : c.stop = c.address + 32 + 16 * c.block.size.toNat := rfl
  have top : d.stop = c.stop := by
    have start : d.stop = next + 32 + 16 * (c.block.size - alignedUnits size - 2).toNat := rfl
    omega
  obtain ⟨high, notFree, notBusy, fresh⟩ := ok.fresh (e := next) (by omega) (by omega)
  have gap := ok.gap_one
  have sameT : SameOutside s t c.address c.stop := same.wider (Nat.le_refl _) (by omega)
  have header : SameOutside t s' next (next + 32) := (same_setBlock t next d.block).trans (.of_eq rfl rfl rfl)
  have stretch : SameOutside s s' c.address c.stop := sameT.trans (header.wider (by omega) (by omega))
  refine ⟨s', d, runs, ?_, rfl, sum, stretch⟩
  apply gap.fill [c', d] ⟨rfl, rfl, top⟩
  · exact stretch
  · intro e member
    rcases List.mem_cons.mp member with rfl | member
    · exact cellOk.any.frame header (.inl (Nat.le_of_eq stop))
    · rw [List.mem_singleton.mp member]
      refine ⟨setBlock_self _ next d.block, rfl, rfl, .inl ⟨rfl, fun x above under => ?_⟩⟩
      rcases ok.ok.kind with ⟨_, blank⟩ | ⟨busy, _⟩
      · change t.byte x = freedPadding
        have start : d.address = next := rfl
        rw [same.byte x (by omega)]
        exact blank x (by omega) (by omega)
      · exact absurd free (Cell.in_use busy)
  · have ring := ok.order
    rw [← order] at ring
    exact order_insert ring fresh rfl rfl
  · have here := cells_forward c
    have others {x : Nat} := gap.other (x := x) here
    have isFree : FreeAt (front ++ c :: back) c.address := freeAt_cons.mpr (.inl ⟨rfl, free⟩)
    have moved := ok.listed.allocate ok.apart isFree
    have added := moved.add (ok.apart.allocate isFree) high (fun free => notFree free.1)
      fun busy => busy.elim notBusy fun same => absurd same (by omega)
    have busy : ¬c'.isFree := allocated_busy c (alignedUnits size) size
    have dFree : d.isFree := rfl
    have address : c'.address = c.address ∧ d.address = next := ⟨rfl, rfl⟩
    change Listed (insertTailList (insertTailList (removeEntryList t.list c.address) expAllocatedBlockList c.address)
      expFreeBlockList next) _ _
    rw [list]
    apply added.congr
    · intro x
      have other := others (x := x)
      simp only [List.cons_append, List.nil_append, freeAt_cons, address, free, busy, dFree]
      grind
    · intro x
      simp only [List.cons_append, List.nil_append, busyAt_cons, address, free, busy, dFree]
      grind

/-- What an allocation in the free block `c` does: it makes `c'` of it, and a new free block of the rest. -/
structure Allocation (padded : Prop) (s s' : Heap) (cells cells' : List Cell) (c c' : Cell) (size : BitVec 32) :
    Prop where
  sound : Sound padded s' cells'
  address : c'.address = c.address
  kind : c'.block.blockType = heapBlockAllocated
  room : size.toNat + c'.block.paddingSize.toNat = 16 * c'.block.size.toNat
  busy : ∀ d, Busy cells' d ↔ Busy cells d ∨ d = c'
  same : SameOutside s s' c.address c.stop

theorem expAllocateHeapInBlock_spec {cells : List Cell} (ok : Sound padded s cells) (member : c ∈ cells)
    (free : c.isFree) (fits : Fits c size) :
    ∃ s' cells' c', expAllocateHeapInBlock s c.address size = some (c.address + 32, s') ∧
      Allocation padded s s' cells cells' c c' size := by
  obtain ⟨front, back, rfl⟩ := List.append_of_mem member
  obtain ⟨mergedFront, mergedBack, previous, next⟩ := merged_middle.mp ok.merged
  by_cases whole : c.block.size - alignedUnits size ≤ 2
  · obtain ⟨s', runs, layout, room, same⟩ := allocate_whole ok.layout free fits whole
    have busy := allocated_busy c c.block.size size
    refine ⟨s', _, c.allocated c.block.size size, runs, ⟨layout, ?_⟩, rfl, rfl, room, fun d => ?_, same⟩
    · exact merged_middle.mpr ⟨mergedFront, mergedBack, fun _ _ both => busy both.2, fun _ _ both => busy both.1⟩
    · simp only [Busy, List.mem_append, List.mem_cons]
      grind
  · obtain ⟨s', d, runs, layout, dFree, room, same⟩ := allocate_split ok.layout free fits whole
    have busy := allocated_busy c (alignedUnits size) size
    refine ⟨s', _, c.allocated (alignedUnits size) size, runs, ⟨layout, ?_⟩, rfl, rfl, room, fun d => ?_, same⟩
    · refine merged_middle.mpr ⟨mergedFront, ?_, fun _ _ both => busy both.2, fun _ _ both => busy both.1⟩
      exact List.isChain_cons.mpr ⟨fun y first both => next y first ⟨free, both.2⟩, mergedBack⟩
    · simp only [Busy, List.mem_append, List.mem_cons]
      grind

end allocate

section find

variable {s : Heap} {nSize size : BitVec 32}

/-- The smallest of some free blocks that are large enough, with its size. -/
def IdealOf (s : Heap) (nSize : BitVec 32) (frees : List Nat) : Option (Nat × BitVec 32) → Prop
  | none => ∀ a ∈ frees, ∀ b, s.block a = some b → ¬nSize ≤ b.size
  | some (ideal, size) => (ideal ∈ frees ∧ ∃ b, s.block ideal = some b ∧ b.size = size ∧ nSize ≤ size) ∧
      ∀ a ∈ frees, ∀ b, s.block a = some b → nSize ≤ b.size → size ≤ b.size

theorem idealOf_snoc {frees : List Nat} {ideal : Option (Nat × BitVec 32)} (found : IdealOf s nSize frees ideal)
    {a : Nat} {b : EheapBlock} (here : s.block a = some b) :
    IdealOf s nSize (frees ++ [a])
      (if nSize ≤ b.size ∧ ideal.all (fun i => b.size < i.2) then some (a, b.size) else ideal) := by
  have last : ∀ {P : Nat → Prop}, (∀ x ∈ frees, P x) → P a → ∀ x ∈ frees ++ [a], P x := by
    intro P all this x member
    rcases List.mem_append.mp member with inFront | atEnd
    · exact all x inFront
    · rw [List.mem_singleton.mp atEnd]
      exact this
  have own : ∀ {Q : EheapBlock → Prop}, Q b → ∀ b', s.block a = some b' → Q b' := by
    intro Q this b' there
    rw [here] at there
    rw [← Option.some.inj there]
    exact this
  split
  · rename_i better
    refine ⟨⟨List.mem_append_right _ List.mem_cons_self, b, here, rfl, better.1⟩, ?_⟩
    apply last
    · intro x member b' there enough
      cases ideal with
      | none => exact absurd enough (found x member b' there)
      | some i =>
        have least := found.2 x member b' there enough
        have less : b.size < i.2 := of_decide_eq_true better.2
        exact BitVec.le_trans (BitVec.le_of_lt less) least
    · exact own fun _ => BitVec.le_refl _
  · rename_i worse
    cases ideal with
    | none => exact last found (own fun enough => worse ⟨enough, rfl⟩)
    | some i =>
      obtain ⟨⟨member, large⟩, least⟩ := found
      refine ⟨⟨List.mem_append_left _ member, large⟩, last least (own fun enough => ?_)⟩
      apply BitVec.not_lt.mp
      exact fun less => worse ⟨enough, decide_eq_true less⟩

/-- The search from any block of the free list on ends with the smallest block of the whole list. -/
theorem findIdeal_spec {ys : List Nat} : ∀ {xs : List Nat} {p : Nat} {ideal : Option (Nat × BitVec 32)} {fuel : Nat},
    Segment s.list p ys expFreeBlockList → IdealOf s nSize xs ideal → ys.length < fuel →
    (∀ a ∈ ys, a ≠ expFreeBlockList ∧ expCheckBlockValid s a = true ∧ ∃ b, s.block a = some b) →
    ∃ found, findIdeal s nSize fuel (s.list.flink p) ideal = some (found.map (·.1)) ∧
      IdealOf s nSize (xs ++ ys) found := by
  induction ys with
  | nil =>
    intro xs p ideal fuel segment found enough _
    obtain ⟨fuel, rfl⟩ := Nat.exists_eq_succ_of_ne_zero (Nat.ne_of_gt enough)
    refine ⟨ideal, ?_, by rwa [List.append_nil]⟩
    rw [findIdeal, if_pos segment.1]
  | cons y ys ih =>
    intro xs p ideal fuel segment found enough blocks
    obtain ⟨next, _, rest⟩ := segment
    obtain ⟨fuel, rfl⟩ := Nat.exists_eq_succ_of_ne_zero (Nat.ne_of_gt (Nat.lt_of_le_of_lt (Nat.zero_le _) enough))
    obtain ⟨notHead, valid, b, here⟩ := blocks y List.mem_cons_self
    obtain ⟨result, runs, isIdeal⟩ := ih rest (idealOf_snoc found here) (Nat.lt_of_succ_lt_succ enough)
      fun a member => blocks a (List.mem_cons_of_mem _ member)
    refine ⟨result, ?_, by rwa [List.append_assoc] at isIdeal⟩
    rw [findIdeal, next, if_neg notHead, valid, here]
    exact runs

variable {cells : List Cell}

/-- Each block of the free list is a free block of the layout, and there are not too many to be searched. -/
theorem Layout.frees (ok : Layout padded s cells) {fs : List Nat} (ring : Ring s.list expFreeBlockList fs)
    (inFree : ∀ a, a ∈ fs ↔ FreeAt cells a) : fs.length < heapBlocks := by
  have within : fs ⊆ cells.map Cell.address := by
    intro a member
    obtain ⟨c, inside, rfl, _⟩ := (inFree a).mp member
    exact List.mem_map_of_mem inside
  have fewer := (List.nodup_cons.mp ring.1).2.length_le_of_subset within
  rw [List.length_map] at fewer
  exact Nat.lt_of_le_of_lt fewer ok.length_lt

/-- The block that is found is the smallest free one that is large enough. -/
structure Ideal (cells : List Cell) (size : BitVec 32) (c : Cell) : Prop where
  member : c ∈ cells
  free : c.isFree
  large : alignedUnits size ≤ c.block.size
  least : ∀ d ∈ cells, d.isFree → alignedUnits size ≤ d.block.size → c.block.size ≤ d.block.size

theorem expFindIdealBlock_spec (ok : Layout padded s cells) (size : BitVec 32) :
    (expFindIdealBlock s size = some none ∧ ∀ c ∈ cells, c.isFree → ¬alignedUnits size ≤ c.block.size) ∨
      ∃ c, expFindIdealBlock s size = some (some c.address) ∧ Ideal cells size c := by
  obtain ⟨fs, bs, ring, _, inFree, _⟩ := ok.listed
  have each : ∀ a ∈ fs, ∃ c ∈ cells, c.address = a ∧ c.isFree := fun a member => (inFree a).mp member
  have valid : ∀ a ∈ fs, a ≠ expFreeBlockList ∧ expCheckBlockValid s a = true ∧ ∃ b, s.block a = some b := by
    intro a member
    obtain ⟨c, inside, rfl, free⟩ := each a member
    refine ⟨fun atHead => ?_, (ok.cell c inside).valid (.inr fun allocated => ?_), _, (ok.cell c inside).here⟩
    · have bounds := ok.bounds inside
      unfold expHeapArea expFreeBlockList at *
      omega
    · exact Cell.in_use (.inl allocated) free
  have none : IdealOf s (alignedUnits size) [] none := fun a member => absurd member List.not_mem_nil
  obtain ⟨found, runs, ideal⟩ := findIdeal_spec ring.2 none (ok.frees ring inFree) valid
  rw [List.nil_append] at ideal
  cases found with
  | none =>
    left
    refine ⟨runs, fun c member free enough => ?_⟩
    exact ideal c.address ((inFree c.address).mpr ⟨c, member, rfl, free⟩) c.block (ok.cell c member).here enough
  | some found =>
    obtain ⟨address, units⟩ := found
    obtain ⟨⟨member, b, here, rfl, large⟩, least⟩ := ideal
    obtain ⟨c, inside, rfl, free⟩ := each address member
    rw [(ok.cell c inside).here] at here
    obtain rfl := Option.some.inj here
    right
    refine ⟨c, runs, inside, free, large, fun d member free enough => ?_⟩
    exact least d.address ((inFree d.address).mpr ⟨d, member, rfl, free⟩) d.block (ok.cell d member).here enough

/-- ExAllocateHeap uses the smallest free block that is large enough, or changes nothing. -/
theorem exAllocateHeap_spec (ok : Sound padded s cells) (small : size < 0xFFFFFFF1) :
    (exAllocateHeap s size = some (none, s) ∧ ∀ c ∈ cells, c.isFree → ¬alignedUnits size ≤ c.block.size) ∨
      ∃ c s' cells' c', exAllocateHeap s size = some (some (c.address + 32), s') ∧ Ideal cells size c ∧
        Allocation padded s s' cells cells' c c' size := by
  unfold exAllocateHeap
  rcases expFindIdealBlock_spec ok.layout size with ⟨runs, noBlock⟩ | ⟨c, runs, ideal⟩
  · left
    rw [runs]
    exact ⟨rfl, noBlock⟩
  · right
    obtain ⟨s', cells', c', allocates, allocation⟩ :=
      expAllocateHeapInBlock_spec ok ideal.member ideal.free ⟨small, ideal.large⟩
    refine ⟨c, s', cells', c', ?_, ideal, allocation⟩
    rw [runs, Option.bind_some]
    simp only
    rw [allocates]
    rfl

theorem exAllocateHeap_full (ok : Sound padded s cells) (full : ∀ c ∈ cells, ¬c.isFree) :
    exAllocateHeap s size = some (none, s) := by
  unfold exAllocateHeap
  rcases expFindIdealBlock_spec ok.layout size with ⟨runs, _⟩ | ⟨c, _, ideal⟩
  · rw [runs]
    rfl
  · exact absurd ideal.free (full c ideal.member)

end find

end Gr8os.Ex
