import Gr8os.Ex.HeapAllocation

/-! Freeing: a block that is given back is joined with the free block behind it and the one in front of it. -/
namespace Gr8os.Ex

open Intrusive Ke Bytes Tiling

variable {padded : Prop}

section merge

variable {s : Heap} {front back : List Cell} {c d : Cell}

/-- The block that two neighbours make. -/
def Cell.merged (c d : Cell) : Cell where
  address := c.address
  block := EheapBlock.recalculated { c.block with size := c.block.size + (d.block.size + 2) } c.address

theorem merged_stop (ok : Layout padded s (front ++ c :: d :: back)) : (c.merged d).stop = d.stop := by
  obtain ⟨_, next⟩ := ok.gap_two
  have first := ok.size_lt (c := c) (List.mem_append_right _ List.mem_cons_self)
  have second := ok.size_lt (c := d) (List.mem_append_right _ (List.mem_cons_of_mem _ List.mem_cons_self))
  have sum : (c.block.size + (d.block.size + 2)).toNat = c.block.size.toNat + d.block.size.toNat + 2 := by bv_omega
  have start : (c.merged d).stop = c.address + 32 + 16 * (c.block.size + (d.block.size + 2)).toNat := rfl
  unfold Cell.stop at *
  omega

theorem mergeBlocks_spec (ok : Layout padded s (front ++ c :: d :: back)) (cFree : c.isFree) (dFree : d.isFree) :
    ∃ s', mergeBlocks s c.address d.address = some s' ∧ Layout padded s' (front ++ c.merged d :: back) ∧
      SameOutside s s' c.address d.stop := by
  have cOk := ok.ok
  have dOk : CellOk padded s d := ok.cell d (List.mem_append_right _ (List.mem_cons_of_mem _ List.mem_cons_self))
  obtain ⟨gap, next⟩ := ok.gap_two
  have cForward := cells_forward c
  have dForward := cells_forward d
  have stop := merged_stop ok
  let t : Heap := { s.setBlock c.address (c.merged d).block with
    list := removeEntryList s.list d.address
    memoryOrderList := removeEntryList s.memoryOrderList d.address }
  have runs : mergeBlocks s c.address d.address = some (t.memset d.address freedPadding 32) := by
    unfold mergeBlocks
    rw [cOk.here, dOk.here]
    rfl
  have set : SameOutside s t c.address (c.address + 32) :=
    (same_setBlock s c.address (c.merged d).block).trans (.of_eq rfl rfl rfl)
  have header : SameOutside s t c.address d.stop := set.wider (Nat.le_refl _) (by unfold Cell.stop at *; omega)
  have wiped := same_memset t d.address freedPadding 32
  have same : SameOutside s (t.memset d.address freedPadding 32) c.address d.stop :=
    header.trans (wiped.wider (by omega) (by unfold Cell.stop; omega))
  refine ⟨_, runs, ?_, same⟩
  apply gap.fill [c.merged d] ⟨rfl, stop⟩ same
  · intro e member
    rw [List.mem_singleton.mp member]
    refine ⟨?_, rfl, cOk.cookie, .inl ⟨cFree, fun x above below => ?_⟩⟩
    · change (t.memset d.address freedPadding 32).block c.address = some (c.merged d).block
      rw [wiped.block c.address (by unfold Cell.stop at next; omega)]
      exact setBlock_self s c.address (c.merged d).block
    · change c.address + 32 ≤ x at above
      by_cases inside : d.address ≤ x ∧ x < d.address + 32
      · change fill t.byte d.address (d.address + 32) (fun _ => freedPadding) x = freedPadding
        exact fill_inside inside.1 inside.2
      · rw [wiped.byte x (by omega)]
        change s.byte x = freedPadding
        by_cases first : x < c.stop
        · exact cOk.blank cFree x above first
        · exact dOk.blank dFree x (by omega) (by omega)
  · have ring := ok.order
    rw [List.map_append, List.map_cons, List.map_cons] at ring
    have parted : front.map Cell.address ++ c.address :: d.address :: back.map Cell.address =
        (front.map Cell.address ++ [c.address]) ++ d.address :: back.map Cell.address := by
      rw [List.append_assoc]
      rfl
    rw [parted] at ring
    have shorter := ring_unlink ring
    rw [List.append_assoc] at shorter
    rw [List.map_append]
    exact shorter
  · have both : ∀ x, FreeAt (front ++ ([c, d] ++ back)) x ↔ _ := fun x => freeAt_middle [c, d]
    have dropped := ok.listed.drop ok.apart ((both d.address).mpr (.inl (freeAt_two.mpr (.inr ⟨rfl, dFree⟩))))
    have free : (c.merged d).isFree := cFree
    have address : (c.merged d).address = c.address := rfl
    apply dropped.congr
    · intro x
      change FreeAt (front ++ ([c, d] ++ back)) x ∧ x ≠ d.address ↔ FreeAt (front ++ c.merged d :: back) x
      rw [both, freeAt_cons, freeAt_two, address]
      have other : FreeAt (front ++ back) x → x ≠ d.address := by
        intro there same
        have outside := gap.freeAway there
        omega
      have apart : x = c.address → x ≠ d.address := by omega
      grind
    · intro x
      change BusyAt (front ++ ([c, d] ++ back)) x ↔ BusyAt (front ++ c.merged d :: back) x
      rw [busyAt_middle [c, d], busyAt_cons, busyAt_two, address]
      grind

end merge

section neighbours

variable {s : Heap} {front back cells : List Cell} {c d : Cell}

theorem Layout.flink_last (ok : Layout padded s (front ++ [c])) :
    s.memoryOrderList.flink c.address = expMemoryOrderBlockList := by
  have ring := ok.order.2
  rw [List.map_append] at ring
  exact ((segment_append _ _).mp ring).2.1

theorem Layout.flink_next (ok : Layout padded s (front ++ c :: d :: back)) :
    s.memoryOrderList.flink c.address = d.address := by
  have ring := ok.order.2
  rw [List.map_append] at ring
  exact ((segment_append _ _).mp ring).2.1

theorem Layout.blink_first (ok : Layout padded s (c :: back)) :
    s.memoryOrderList.blink c.address = expMemoryOrderBlockList :=
  ok.order.2.2.1

theorem Layout.blink_previous (ok : Layout padded s (front ++ c :: d :: back)) :
    s.memoryOrderList.blink d.address = c.address := by
  have ring := ok.order.2
  rw [List.map_append] at ring
  exact ((segment_append _ _).mp ring).2.2.1

theorem Layout.not_head (ok : Layout padded s cells) (member : c ∈ cells) : c.address ≠ expMemoryOrderBlockList := by
  have bounds := ok.bounds member
  unfold expHeapArea expMemoryOrderBlockList at *
  omega

theorem Layout.typeAt (ok : Layout padded s cells) (member : c ∈ cells) (headType : Heap → BitVec 8) :
    typeAt headType s c.address = some c.block.blockType := by
  unfold Ex.typeAt
  rw [if_neg (ok.not_head member), (ok.cell c member).here]
  rfl

end neighbours

section walks

variable {headType : Heap → BitVec 8} {s s' : Heap} {front back : List Cell} {c : Cell} {p a fuel : Nat}

theorem walkDown_stop {blockType : BitVec 8} (here : typeAt headType s a = some blockType)
    (other : blockType ≠ heapBlockFree) : walkDown headType (fuel + 1) s p a = some s := by
  rw [walkDown, here, Option.bind_some, if_pos other]

theorem walkUp_stop {blockType : BitVec 8} (here : typeAt headType s a = some blockType)
    (other : blockType ≠ heapBlockFree) : walkUp headType (fuel + 1) s p a = some s := by
  rw [walkUp, here, Option.bind_some, if_pos other]

theorem walkDown_step (fuel : Nat) (here : typeAt headType s a = some heapBlockFree) (merges : mergeBlocks s p a = some s') :
    walkDown headType (fuel + 1) s p a = if s'.memoryOrderList.flink p = expMemoryOrderBlockList then some s'
      else walkDown headType fuel s' p (s'.memoryOrderList.flink p) := by
  rw [walkDown, here, Option.bind_some, if_neg (not_not_intro rfl), merges]
  rfl

theorem walkUp_step (fuel : Nat) (here : typeAt headType s a = some heapBlockFree) (merges : mergeBlocks s a p = some s') :
    walkUp headType (fuel + 1) s p a = if s'.memoryOrderList.blink a = expMemoryOrderBlockList then some s'
      else walkUp headType fuel s' p (s'.memoryOrderList.blink a) := by
  rw [walkUp, here, Option.bind_some, if_neg (not_not_intro rfl), merges]
  rfl

variable (busyHead : ∀ s, headType s ≠ heapBlockFree)

include busyHead

/-- The walk down takes in the next block if that is free, and stops at the one behind it. -/
theorem walkDown_spec (ok : Layout padded s (front ++ c :: back)) (free : c.isFree) (merged : Merged back) :
    ∃ s' c' back', walkDown headType heapBlocks s c.address (s.memoryOrderList.flink c.address) = some s' ∧
      Layout padded s' (front ++ c' :: back') ∧ c'.isFree ∧ c'.address = c.address ∧ c.stop ≤ c'.stop ∧
      SameOutside s s' c.address c'.stop ∧ Merged back' ∧ (∀ y ∈ back'.head?, ¬y.isFree) ∧
      ∀ e, Busy back' e ↔ Busy back e := by
  cases back with
  | nil =>
    have stops : walkDown headType heapBlocks s c.address (s.memoryOrderList.flink c.address) = some s := by
      rw [ok.flink_last]
      exact walkDown_stop (if_pos rfl) (busyHead s)
    exact ⟨s, c, [], stops, ok, free, rfl, Nat.le_refl _, .refl s, merged, nofun, fun _ => Iff.rfl⟩
  | cons d back =>
    have there : typeAt headType s d.address = some d.block.blockType :=
      ok.typeAt (List.mem_append_right _ (List.mem_cons_of_mem _ List.mem_cons_self)) headType
    by_cases dFree : d.isFree
    · obtain ⟨s', merges, layout, same⟩ := mergeBlocks_spec ok free dFree
      have stop := merged_stop ok
      have next := ok.gap_two.2
      have forward := cells_forward d
      obtain ⟨behind, mergedBack⟩ := List.isChain_cons.mp merged
      have first : ∀ y ∈ back.head?, ¬y.isFree := fun y isFirst yFree => behind y isFirst ⟨dFree, yFree⟩
      rw [show d.block.blockType = heapBlockFree from dFree] at there
      have stops : walkDown headType heapBlocks s c.address (s.memoryOrderList.flink c.address) = some s' := by
        rw [ok.flink_next]
        refine (walkDown_step 0x80000 there merges).trans ?_
        cases back with
        | nil =>
          have last : s'.memoryOrderList.flink c.address = expMemoryOrderBlockList := layout.flink_last
          rw [last]
          exact if_pos rfl
        | cons e back =>
          have member : e ∈ front ++ c.merged d :: e :: back :=
            List.mem_append_right _ (List.mem_cons_of_mem _ List.mem_cons_self)
          have after : s'.memoryOrderList.flink c.address = e.address := layout.flink_next
          rw [after]
          exact (if_neg (layout.not_head member)).trans (walkDown_stop (layout.typeAt member headType) (first e rfl))
      refine ⟨s', c.merged d, back, stops, layout, free, rfl, by omega, ?_, mergedBack, first, fun e => ?_⟩
      · rw [stop]
        exact same
      · simp only [Busy, List.mem_cons]
        constructor
        · exact fun busy => ⟨.inr busy.1, busy.2⟩
        · rintro ⟨rfl | member, busy⟩
          · exact absurd dFree busy
          · exact ⟨member, busy⟩
    · have stops : walkDown headType heapBlocks s c.address (s.memoryOrderList.flink c.address) = some s := by
        rw [ok.flink_next]
        exact walkDown_stop there dFree
      refine ⟨s, c, d :: back, stops, ok, free, rfl, Nat.le_refl _, .refl s, merged, ?_, fun _ => Iff.rfl⟩
      rintro y isFirst
      obtain rfl := Option.some.inj isFirst
      exact dFree

/-- The walk up lets the previous block take in the freed one if that is free, and stops at the one in front. -/
theorem walkUp_spec (ok : Layout padded s (front ++ c :: back)) (free : c.isFree) (merged : Merged front) :
    ∃ s' c' front', walkUp headType heapBlocks s c.address (s.memoryOrderList.blink c.address) = some s' ∧
      Layout padded s' (front' ++ c' :: back) ∧ c'.isFree ∧ c'.address ≤ c.address ∧ c'.stop = c.stop ∧
      SameOutside s s' c'.address c.stop ∧ Merged front' ∧ (∀ x ∈ front'.getLast?, ¬x.isFree) ∧
      ∀ e, Busy front' e ↔ Busy front e := by
  rcases List.eq_nil_or_concat' front with rfl | ⟨front, d, rfl⟩
  · have stops : walkUp headType heapBlocks s c.address (s.memoryOrderList.blink c.address) = some s := by
      rw [Layout.blink_first ok]
      exact walkUp_stop (if_pos rfl) (busyHead s)
    exact ⟨s, c, [], stops, ok, free, Nat.le_refl _, rfl, .refl s, merged, nofun, fun _ => Iff.rfl⟩
  · rw [List.append_assoc] at ok
    change Layout padded s (front ++ d :: c :: back) at ok
    have there : typeAt headType s d.address = some d.block.blockType :=
      ok.typeAt (List.mem_append_right _ List.mem_cons_self) headType
    by_cases dFree : d.isFree
    · obtain ⟨s', merges, layout, same⟩ := mergeBlocks_spec ok dFree free
      have stop := merged_stop ok
      have next := ok.gap_two.2
      have forward := cells_forward d
      rw [show d.block.blockType = heapBlockFree from dFree] at there
      obtain ⟨mergedFront, _, last⟩ := List.isChain_append.mp merged
      have previous : ∀ x ∈ front.getLast?, ¬x.isFree := fun x isLast xFree => last x isLast d rfl ⟨xFree, dFree⟩
      have stops : walkUp headType heapBlocks s c.address (s.memoryOrderList.blink c.address) = some s' := by
        rw [ok.blink_previous]
        refine (walkUp_step 0x80000 there merges).trans ?_
        rcases List.eq_nil_or_concat' front with rfl | ⟨front, e, rfl⟩
        · have first : s'.memoryOrderList.blink d.address = expMemoryOrderBlockList :=
            Layout.blink_first (c := d.merged c) layout
          rw [first]
          exact if_pos rfl
        · have member : e ∈ front ++ [e] ++ d.merged c :: back :=
            List.mem_append_left _ (List.mem_append_right _ List.mem_cons_self)
          have kind := layout.typeAt member headType
          have head := layout.not_head member
          rw [List.append_assoc] at layout
          have before : s'.memoryOrderList.blink d.address = e.address := layout.blink_previous
          rw [before]
          exact (if_neg head).trans (walkUp_stop kind (previous e List.getLast?_concat))
      refine ⟨s', d.merged c, front, stops, layout, dFree, ?_, stop, same, mergedFront, previous, fun e => ?_⟩
      · change d.address ≤ c.address
        omega
      · simp only [Busy, List.mem_append, List.mem_singleton]
        constructor
        · exact fun busy => ⟨.inl busy.1, busy.2⟩
        · rintro ⟨member | rfl, busy⟩
          · exact ⟨member, busy⟩
          · exact absurd dFree busy
    · have stops : walkUp headType heapBlocks s c.address (s.memoryOrderList.blink c.address) = some s := by
        rw [ok.blink_previous]
        exact walkUp_stop there dFree
      refine ⟨s, c, front ++ [d], stops, ?_, free, Nat.le_refl _, rfl, .refl s, merged, ?_, fun _ => Iff.rfl⟩
      · rw [List.append_assoc]
        exact ok
      · intro x isLast
        rw [List.getLast?_concat] at isLast
        obtain rfl := Option.some.inj isLast
        exact dFree

theorem expRebuildFreeBlocks_spec (ok : Layout padded s (front ++ c :: back)) (free : c.isFree)
    (mergedFront : Merged front) (mergedBack : Merged back) :
    ∃ s' cells' f, expRebuildFreeBlocks headType s c.address = some s' ∧ Sound padded s' cells' ∧
      (∀ e, Busy cells' e ↔ Busy (front ++ back) e) ∧ f ∈ cells' ∧ f.isFree ∧ SameOutside s s' f.address f.stop ∧
      f.address ≤ c.address ∧ c.stop ≤ f.stop := by
  have valid := ok.ok.valid (.inr fun allocated => Cell.in_use (.inl allocated) free)
  obtain ⟨t, c', back', down, layoutDown, free', start, end', sameDown, mergedBack', behind, busyBack⟩ :=
    walkDown_spec busyHead ok free mergedBack
  obtain ⟨s', f, front', up, layoutUp, fFree, start', end'', sameUp, mergedFront', before, busyFront⟩ :=
    walkUp_spec busyHead layoutDown free' mergedFront
  have runs : expRebuildFreeBlocks headType s c.address = some s' := by
    unfold expRebuildFreeBlocks
    rw [valid, down]
    rw [start] at up
    exact up
  rw [start] at start'
  refine ⟨s', front' ++ f :: back', f, runs, ⟨layoutUp, merged_middle.mpr ⟨mergedFront', mergedBack', ?_, ?_⟩⟩, ?_,
    List.mem_append_right _ List.mem_cons_self, fFree, ?_, start', ?_⟩
  · exact fun x isLast both => before x isLast both.1
  · exact fun y isFirst both => behind y isFirst both.2
  · intro e
    have frontSame := busyFront e
    have backSame := busyBack e
    have notFree : e = f → e.isFree := by
      rintro rfl
      exact fFree
    simp only [Busy, List.mem_append, List.mem_cons] at frontSame backSame ⊢
    grind
  · rw [end'']
    exact (sameDown.wider start' (Nat.le_refl _)).trans sameUp
  · rw [end'']
    exact end'

end walks

section free

variable {headType : Heap → BitVec 8} {s : Heap} {front back cells : List Cell} {c : Cell}

def Cell.freed (c : Cell) : Cell where
  address := c.address
  block := EheapBlock.recalculated { c.block with blockType := heapBlockFree } c.address

/-- A block leaves the allocated list for the free list and gets the pattern of free blocks. -/
theorem freed_layout (ok : Layout padded s (front ++ c :: back)) (busy : ¬c.isFree) :
    ∃ s', ((s.setBlock c.address c.freed.block).moveTo expFreeBlockList c.address).writeFreedPadding c.address =
        some s' ∧ Layout padded s' (front ++ c.freed :: back) ∧ SameOutside s s' c.address c.stop := by
  have others {x : Nat} := ok.gap_one.other (x := x) (cells_forward c)
  let t := (s.setBlock c.address c.freed.block).moveTo expFreeBlockList c.address
  have set : t.block c.address = some c.freed.block := setBlock_self s c.address c.freed.block
  obtain ⟨s', written, here, blank, data, list, order⟩ := writeFreedPadding_spec set
  have header : SameOutside s t c.address (c.address + 32) :=
    (same_setBlock s c.address c.freed.block).trans (.of_eq rfl rfl rfl)
  have same : SameOutside s s' c.address c.stop :=
    (header.wider (Nat.le_refl _) (Nat.le_add_right _ _)).trans (data.wider (Nat.le_add_right _ _) (Nat.le_refl _))
  have cookie : c.block.cookie = s'.expHeapCookie := by
    rw [same.cookie]
    exact ok.ok.cookie
  have address : c.freed.address = c.address := rfl
  refine ⟨s', written, ok.swap address rfl same ⟨here, rfl, cookie, .inl ⟨rfl, blank⟩⟩ order ?_, same⟩
  have released := ok.listed.release ok.apart (busyAt_cons.mpr (.inl ⟨rfl, busy⟩))
  have free : c.freed.isFree := rfl
  rw [list]
  apply released.congr
  · intro x
    simp only [freeAt_cons, address, free, busy]
    grind
  · intro x
    have other := others (x := x)
    simp only [busyAt_cons, address, free, busy]
    grind

/-- What freeing the block `c` does: a free block `f` covers it. -/
structure Freeing (padded : Prop) (s s' : Heap) (cells cells' : List Cell) (c : Cell) : Prop where
  sound : Sound padded s' cells'
  busy : ∀ d, Busy cells' d ↔ Busy cells d ∧ d ≠ c
  same : ∃ f ∈ cells', f.isFree ∧ SameOutside s s' f.address f.stop

theorem expFreeHeapBlock_spec (busyHead : ∀ s, headType s ≠ heapBlockFree) (ok : Sound padded s cells)
    (busy : Busy cells c) :
    ∃ s' cells', expFreeHeapBlock headType s c.address = some s' ∧ Freeing padded s s' cells cells' c := by
  obtain ⟨member, notFree⟩ := busy
  obtain ⟨front, back, rfl⟩ := List.append_of_mem member
  obtain ⟨mergedFront, mergedBack, _, _⟩ := merged_middle.mp ok.merged
  obtain ⟨t, frees, layout, same⟩ := freed_layout ok.layout notFree
  obtain ⟨s', cells', f, rebuilds, sound, busies, inside, free, wider, below, above⟩ :=
    expRebuildFreeBlocks_spec busyHead layout rfl mergedFront mergedBack
  have runs : expFreeHeapBlock headType s c.address = some s' := by
    unfold expFreeHeapBlock
    rw [ok.layout.ok.here, Option.bind_some]
    exact (congrArg (Option.bind · _) frees).trans rebuilds
  refine ⟨s', cells', runs, sound, fun d => ?_, f, inside, free, (same.wider below above).trans wider⟩
  rw [busies]
  have away : d ∈ front ++ back → d ≠ c := ok.layout.gap_one.around (cells_forward c)
  simp only [Busy, List.mem_append, List.mem_cons] at away ⊢
  grind

theorem exFreeHeap_spec (busyHead : ∀ s, headType s ≠ heapBlockFree) (ok : Sound padded s cells) (member : c ∈ cells)
    (allocated : c.block.blockType = heapBlockAllocated) (valid : expCheckBlockValid s c.address = true) :
    ∃ s' cells', exFreeHeap headType s (c.address + 32) = some s' ∧ Freeing padded s s' cells cells' c := by
  obtain ⟨s', cells', frees, freeing⟩ := expFreeHeapBlock_spec busyHead ok ⟨member, Cell.in_use (.inl allocated)⟩
  refine ⟨s', cells', ?_, freeing⟩
  unfold exFreeHeap
  simp only [Nat.add_sub_cancel, valid, (ok.layout.cell c member).here, Option.bind_some, allocated]
  exact frees

end free

end Gr8os.Ex
