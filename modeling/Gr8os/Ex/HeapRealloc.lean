import Gr8os.Ex.HeapFree

/-! Reallocation: in the block itself, or in a new one. -/
namespace Gr8os.Ex

open Intrusive Ke Bytes Tiling

variable {padded : Prop}

section remains

variable {s s' : Heap} {cells cells' : List Cell} {c d : Cell} {size : BitVec 32}

/-- The block `d` is in use still, with the bytes it had. -/
def Remains (s s' : Heap) (cells' : List Cell) (d : Cell) : Prop :=
  Busy cells' d ∧ ∀ x, d.address ≤ x → x < d.stop → s'.byte x = s.byte x

theorem Allocation.remains {c' : Cell} (allocation : Allocation padded s s' cells cells' c c' size)
    (ok : Layout padded s cells) (member : c ∈ cells) (free : c.isFree) (inUse : Busy cells d) :
    Remains s s' cells' d := by
  have other : d ≠ c := by
    rintro rfl
    exact inUse.2 free
  have apart := ok.disjoint member inUse.1 other
  exact ⟨(allocation.busy d).mpr (.inl inUse), fun x above below => allocation.same.byte x (by omega)⟩

theorem Freeing.remains (freeing : Freeing padded s s' cells cells' c) (inUse : Busy cells d) (other : d ≠ c) :
    Remains s s' cells' d := by
  have still := (freeing.busy d).mpr ⟨inUse, other⟩
  obtain ⟨f, member, free, same⟩ := freeing.same
  have notFree : d ≠ f := by
    rintro rfl
    exact still.2 free
  have apart := freeing.sound.layout.disjoint member still.1 notFree
  exact ⟨still, fun x above below => same.byte x (by omega)⟩

/-- No block that has been in use is the new one. -/
theorem Allocation.ne_new {c' : Cell} (allocation : Allocation padded s s' cells cells' c c' size)
    (ok : Layout padded s cells) (member : c ∈ cells) (free : c.isFree) (inUse : Busy cells d) : d ≠ c' := by
  rintro rfl
  have other : d ≠ c := by
    rintro rfl
    exact inUse.2 free
  have apart := ok.disjoint member inUse.1 other
  have forward := cells_forward c
  have forward' := cells_forward d
  have address := allocation.address
  omega

end remains

/-- What a reallocation of the block `c` does: its data is in the block `c'` as far as there is room for it. -/
structure Resizing (padded : Prop) (s s' : Heap) (cells cells' : List Cell) (c c' : Cell) : Prop where
  sound : Sound padded s' cells'
  kind : c'.block.blockType = heapBlockAllocated
  busy : ∀ e, Busy cells' e ↔ Busy cells e ∧ e ≠ c ∨ e = c'
  data : ∀ i, i + c.block.paddingSize.toNat < 16 * c.block.size.toNat →
    i + c'.block.paddingSize.toNat < 16 * c'.block.size.toNat →
    s'.byte (c'.address + 32 + i) = s.byte (c.address + 32 + i)
  others : ∀ e, Busy cells e → e ≠ c → ∀ x, e.address ≤ x → x < e.stop → s'.byte x = s.byte x

section inPlace

variable {s s' : Heap} {front back : List Cell} {c d : Cell} {hi : Nat}

/-- The block in its place, with other sizes. -/
def Cell.sized (c : Cell) (units : BitVec 32) (padding : BitVec 8) : Cell where
  address := c.address
  block := EheapBlock.recalculated { c.block with size := units, paddingSize := padding } c.address

theorem merged_busy (busy : ¬c.isFree) : Merged (front ++ c :: back) ↔ Merged front ∧ Merged back := by
  rw [merged_middle]
  constructor
  · exact fun merged => ⟨merged.1, merged.2.1⟩
  · exact fun merged => ⟨merged.1, merged.2, fun _ _ both => busy both.2, fun _ _ both => busy both.1⟩

/-- A block gets other sizes at the cost of the free blocks next to it. -/
theorem Gap.resizing (gap : Gap padded s front back c.address hi) (room : c.address < hi) (mid mid' : List Cell)
    (frees : ∀ e ∈ mid, e.isFree) (frees' : ∀ e ∈ mid', e.isFree) {units : BitVec 32} {padding : BitVec 8}
    (kind : c.block.blockType = heapBlockAllocated)
    (sound : Sound padded s' (front ++ c.sized units padding :: (mid' ++ back))) (same : SameOutside s s' c.address hi)
    (kept : ∀ x, c.address + 32 ≤ x → x < (c.sized units padding).stop - padding.toNat → s'.byte x = s.byte x) :
    Resizing padded s s' (front ++ c :: (mid ++ back)) (front ++ c.sized units padding :: (mid' ++ back)) c
      (c.sized units padding) := by
  have busy : ¬(c.sized units padding).isFree := Cell.in_use (.inl kind)
  refine ⟨sound, kind, fun e => ?_, fun i _ inside => ?_, fun e inUse ne x above below => ?_⟩
  · have away : e ∈ front ++ back → e ≠ c := gap.around room
    have notOld := frees e
    have notNew := frees' e
    have notFree : e = c.sized units padding → ¬e.isFree := by
      rintro rfl
      exact busy
    simp only [Busy, List.mem_append, List.mem_cons] at away ⊢
    grind
  · apply kept (c.address + 32 + i) (Nat.le_add_right _ _)
    change i + padding.toNat < 16 * units.toNat at inside
    change c.address + 32 + i < c.address + 32 + 16 * units.toNat - padding.toNat
    omega
  · have there : e ∈ front ++ back := by
      obtain ⟨member, notFree⟩ := inUse
      have notOld := frees e
      simp only [List.mem_append, List.mem_cons] at member ⊢
      grind
    have outside := tiles_outside cells_forward gap.before gap.after there
    exact same.byte x (by omega)

/-- Another padding is written, and nothing else changes. -/
theorem realloc_pad (ok : Sound padded s (front ++ c :: back)) (kind : c.block.blockType = heapBlockAllocated)
    {padding : BitVec 8} (inside : padding.toNat ≤ 16 * c.block.size.toNat) :
    ∃ s', (s.setBlock c.address (c.sized c.block.size padding).block).writeAllocPadding c.address = some s' ∧
      Resizing padded s s' (front ++ c :: back) (front ++ c.sized c.block.size padding :: back) c
        (c.sized c.block.size padding) ∧ CellOk True s' (c.sized c.block.size padding) := by
  have busy := Cell.in_use (.inl kind)
  let c' := c.sized c.block.size padding
  have busy' : ¬c'.isFree := busy
  obtain ⟨s', written, cellOk, same, list, order, kept⟩ := busy_spec s c' rfl ok.layout.ok.cookie kind inside
  have gap := ok.layout.gap_one
  have layout : Layout padded s' (front ++ c' :: back) :=
    ok.layout.swap rfl rfl same cellOk.any order (ok.layout.listed_busy rfl busy busy' list)
  have merged : Merged (front ++ c' :: back) := (merged_busy busy').mpr ((merged_busy busy).mp ok.merged)
  have resizing := gap.resizing (cells_forward c) [] [] nofun nofun kind ⟨layout, merged⟩ same
    fun x _ => kept x
  exact ⟨s', written, resizing, cellOk⟩

/-- The header of the rest is written, and both blocks are filled. -/
theorem realloc_split_run (ok : Layout padded s (front ++ c :: back)) (kind : c.block.blockType = heapBlockAllocated)
    {units : BitVec 32} {padding : BitVec 8} (fits : units ≤ c.block.size) (large : 2 < (c.block.size - units).toNat)
    (inside : padding.toNat ≤ 16 * units.toNat) {next : Nat} (place : next = c.address + 32 + 16 * units.toNat) :
    ∃ s', (let s := s.newFreeBlock next (c.block.size - units - 2)
        let s := { s with
          memoryOrderList := insertHeadList s.memoryOrderList c.address next
          list := insertTailList s.list expFreeBlockList next }
        let b := { c.block with size := units, paddingSize := padding }
        ((s.setBlock c.address b).writeAllocPadding c.address).bind fun s =>
          (s.setBlock c.address (b.recalculated c.address)).writeFreedPadding next) = some s' ∧
      SameOutside s s' c.address c.stop ∧ CellOk padded s' (c.sized units padding) ∧
      CellOk padded s' (newCell s next (c.block.size - units - 2)) ∧
      s'.list = insertTailList s.list expFreeBlockList next ∧
      s'.memoryOrderList = insertHeadList s.memoryOrderList c.address next ∧
      (newCell s next (c.block.size - units - 2)).stop = c.stop ∧
      ∀ x, x < next - padding.toNat → s'.byte x = s.byte x := by
  have fitting : units.toNat ≤ c.block.size.toNat := fits
  have diff := BitVec.toNat_sub_of_le fits
  have bound := c.block.size.isLt
  have rest : (c.block.size - units - 2).toNat = c.block.size.toNat - units.toNat - 2 := by bv_omega
  let c' := c.sized units padding
  let d := newCell s next (c.block.size - units - 2)
  let b : EheapBlock := { c.block with size := units, paddingSize := padding }
  have stop : c'.stop = next := place.symm
  have stops : c.stop = c.address + 32 + 16 * c.block.size.toNat := rfl
  have top : d.stop = c.stop := by
    have start : d.stop = next + 32 + 16 * (c.block.size - units - 2).toNat := rfl
    omega
  let t₀ : Heap := { s.setBlock next d.block with
    memoryOrderList := insertHeadList s.memoryOrderList c.address next
    list := insertTailList s.list expFreeBlockList next }
  obtain ⟨t, writes, here, filled, data, list, order, kept⟩ :=
    writeAllocPadding_spec (setBlock_self t₀ c.address b) (b := b) inside
  have cut : c.address + 32 + 16 * b.size.toNat = next := place.symm
  rw [cut] at filled data kept
  have there : (t.setBlock c.address c'.block).block next = some d.block := by
    rw [(same_setBlock t c.address c'.block).block next (by omega), data.block next (by omega),
      (same_setBlock t₀ c.address b).block next (by omega)]
    exact setBlock_self s next d.block
  obtain ⟨s', blanks, dHere, blank, area, list', order'⟩ := writeFreedPadding_spec there
  have first : SameOutside s t₀ next (next + 32) := (same_setBlock s next d.block).trans (.of_eq rfl rfl rfl)
  have second := same_setBlock t₀ c.address b
  have third := same_setBlock t c.address c'.block
  have end' : next + 32 + 16 * d.block.size.toNat = c.stop := top
  rw [end'] at blank area
  have same : SameOutside s s' c.address c.stop :=
    ((((first.wider (by omega) (by omega)).trans (second.wider (by omega) (by omega))).trans
      (data.wider (by omega) (by omega))).trans (third.wider (by omega) (by omega))).trans
      (area.wider (by omega) (by omega))
  refine ⟨s', ?_, same, ⟨?_, rfl, ?_, .inr ⟨.inl kind, inside, fun _ x above below => ?_⟩⟩,
    ⟨dHere, rfl, ?_, .inl ⟨rfl, fun x above below => blank x above (top ▸ below)⟩⟩, list'.trans list,
    order'.trans order, top, fun x below => ?_⟩
  · change ((t₀.setBlock c.address b).writeAllocPadding c.address).bind (fun s =>
      (s.setBlock c.address (b.recalculated c.address)).writeFreedPadding next) = some s'
    rw [writes]
    exact blanks
  · change s'.block c.address = some c'.block
    rw [area.block c.address (by omega)]
    exact setBlock_self t c.address c'.block
  · rw [same.cookie]
    exact ok.ok.cookie
  · change c'.stop - padding.toNat ≤ x at above
    rw [stop] at above below
    rw [area.byte x (by omega)]
    exact filled x above below
  · rw [same.cookie]
    rfl
  · rw [area.byte x (by omega)]
    exact kept x below

/-- What is left of the block becomes a free block of its own. -/
theorem realloc_split (ok : Sound padded s (front ++ c :: back)) (kind : c.block.blockType = heapBlockAllocated)
    (behind : ∀ y ∈ back.head?, ¬y.isFree) {units : BitVec 32} {padding : BitVec 8} (fits : units ≤ c.block.size)
    (large : 2 < (c.block.size - units).toNat) (inside : padding.toNat ≤ 16 * units.toNat) :
    ∃ s' d, (let nextBlock := c.address + 32 + 16 * units.toNat
        let s := s.newFreeBlock nextBlock (c.block.size - units - 2)
        let s := { s with
          memoryOrderList := insertHeadList s.memoryOrderList c.address nextBlock
          list := insertTailList s.list expFreeBlockList nextBlock }
        let b := { c.block with size := units, paddingSize := padding }
        ((s.setBlock c.address b).writeAllocPadding c.address).bind fun s =>
          (s.setBlock c.address (b.recalculated c.address)).writeFreedPadding nextBlock) = some s' ∧
      Resizing padded s s' (front ++ c :: back) (front ++ c.sized units padding :: d :: back) c
        (c.sized units padding) := by
  have busy := Cell.in_use (.inl kind)
  have gap := ok.layout.gap_one
  have cForward := cells_forward c
  obtain ⟨s', runs, same, cellOk, dOk, list, order, top, kept⟩ := realloc_split_run ok.layout kind fits large inside rfl
  let next := c.address + 32 + 16 * units.toNat
  let c' := c.sized units padding
  let d := newCell s next (c.block.size - units - 2)
  have busy' : ¬c'.isFree := busy
  have dFree : d.isFree := rfl
  have inFront : next < c.stop := top ▸ cells_forward d
  obtain ⟨high, notFree, notBusy, fresh⟩ := ok.layout.fresh (e := next) (by omega) inFront
  have listed : Listed s'.list (FreeAt (front ++ ([c', d] ++ back))) (BusyAt (front ++ ([c', d] ++ back))) := by
    have added := ok.layout.listed.add ok.layout.apart high notFree notBusy
    have address : c'.address = c.address ∧ d.address = next := ⟨rfl, rfl⟩
    rw [list]
    apply added.congr
    · intro x
      simp only [List.cons_append, List.nil_append, freeAt_cons, address, busy, busy', dFree]
      grind
    · intro x
      simp only [List.cons_append, List.nil_append, busyAt_cons, address, busy, busy', dFree]
      grind
  have layout : Layout padded s' (front ++ c' :: d :: back) :=
    gap.fill [c', d] ⟨rfl, rfl, top⟩ same (List.forall_mem_cons.mpr ⟨cellOk, List.forall_mem_singleton.mpr dOk⟩)
      (by rw [order]; exact order_insert ok.layout.order fresh rfl rfl) listed
  obtain ⟨mergedFront, mergedBack⟩ := (merged_busy busy).mp ok.merged
  have merged : Merged (front ++ c' :: d :: back) :=
    (merged_busy busy').mpr ⟨mergedFront, List.isChain_cons.mpr ⟨fun y isFirst both => behind y isFirst both.2, mergedBack⟩⟩
  have resizing := gap.resizing cForward [] [d] (fun _ none => absurd none List.not_mem_nil)
    (List.forall_mem_singleton.mpr dFree) kind ⟨layout, merged⟩ same fun x _ below => kept x below
  exact ⟨s', d, runs, resizing⟩

/-- The free block that has got units from the block in front of it. -/
def Cell.grown (d : Cell) (a : Nat) (units : BitVec 32) : Cell where
  address := a
  block := EheapBlock.recalculated { d.block with size := d.block.size + units } a

/-- The new header of the free block behind `c` is written, and both blocks are filled. -/
theorem realloc_shrink_run (ok : Layout padded s (front ++ c :: d :: back))
    (kind : c.block.blockType = heapBlockAllocated) (dFree : d.isFree) {units : BitVec 32} {padding : BitVec 8}
    (fits : units ≤ c.block.size) (large : 2 ≤ (c.block.size - units).toNat) (inside : padding.toNat ≤ 16 * units.toNat)
    {e : Nat} (place : e = d.address - 16 * (c.block.size - units).toNat) :
    ∃ s', ((moveHeaderBack s d.address (16 * (c.block.size - units).toNat) (c.block.size - units)).bind fun s =>
        let b := { c.block with size := units, paddingSize := padding }
        ((s.setBlock c.address b).writeAllocPadding c.address).bind fun s =>
          (s.block e).map fun n =>
            (s.setBlock c.address (b.recalculated c.address)).setBlock e (n.recalculated e)) = some s' ∧
      SameOutside s s' c.address d.stop ∧ CellOk padded s' (c.sized units padding) ∧
      CellOk padded s' (d.grown e (c.block.size - units)) ∧
      s'.list = moveEntry s.list d.address (· - 16 * (c.block.size - units).toNat) ∧
      s'.memoryOrderList = moveEntry s.memoryOrderList d.address (· - 16 * (c.block.size - units).toNat) ∧
      (c.sized units padding).stop = e ∧ (d.grown e (c.block.size - units)).stop = d.stop ∧
      ∀ x, x < e - padding.toNat → s'.byte x = s.byte x := by
  have next := ok.gap_two.2
  have cOk := ok.ok
  have dMember : d ∈ front ++ c :: d :: back := List.mem_append_right _ (List.mem_cons_of_mem _ List.mem_cons_self)
  have dOk := ok.cell d dMember
  have fitting : units.toNat ≤ c.block.size.toNat := fits
  have taken := BitVec.toNat_sub_of_le fits
  have cSize := ok.size_lt (c := c) (List.mem_append_right _ List.mem_cons_self)
  have dSize := ok.size_lt dMember
  generalize kEq : c.block.size - units = k at *
  have sum : (d.block.size + k).toNat = d.block.size.toNat + k.toNat := by bv_omega
  have stops : c.stop = c.address + 32 + 16 * c.block.size.toNat := rfl
  have dStops : d.stop = d.address + 32 + 16 * d.block.size.toNat := rfl
  have cut : (c.sized units padding).stop = e := by
    have start : (c.sized units padding).stop = c.address + 32 + 16 * units.toNat := rfl
    omega
  have top : (d.grown e k).stop = d.stop := by
    have start : (d.grown e k).stop = e + 32 + 16 * (d.block.size + k).toNat := rfl
    omega
  let b : EheapBlock := { c.block with size := units, paddingSize := padding }
  let n : EheapBlock := { d.block with size := d.block.size + k }
  let t₀ : Heap := { s with
    list := moveEntry s.list d.address (· - 16 * k.toNat)
    memoryOrderList := moveEntry s.memoryOrderList d.address (· - 16 * k.toNat) }
  let t₁ := t₀.setBlock e n
  let t₂ := (t₁.memset d.address freedPadding 32).memset (e + 32) freedPadding (16 * k.toNat)
  have moves : moveHeaderBack s d.address (16 * k.toNat) k = some t₂ := by
    unfold moveHeaderBack
    rw [dOk.here, Option.map_some, ← place]
  obtain ⟨t, writes, here, filled, data, list, order, kept⟩ :=
    writeAllocPadding_spec (setBlock_self t₂ c.address b) (b := b) inside
  have cut' : c.address + 32 + 16 * b.size.toNat = e := cut
  rw [cut'] at filled data kept
  have wiped := same_memset t₁ d.address freedPadding 32
  have blanked := same_memset (t₁.memset d.address freedPadding 32) (e + 32) freedPadding (16 * k.toNat)
  have there : t.block e = some n := by
    rw [data.block e (by omega), (same_setBlock t₂ c.address b).block e (by omega), blanked.block e (by omega),
      wiped.block e (by omega)]
    exact setBlock_self t₀ e n
  let s' := (t.setBlock c.address (c.sized units padding).block).setBlock e (d.grown e k).block
  have first : SameOutside s t₁ e (e + 32) :=
    .trans (.of_eq rfl rfl rfl : SameOutside s t₀ e (e + 32)) (same_setBlock t₀ e n)
  have second := same_setBlock t₂ c.address b
  have third := same_setBlock t c.address (c.sized units padding).block
  have fourth := same_setBlock (t.setBlock c.address (c.sized units padding).block) e (d.grown e k).block
  have before : SameOutside s t₂ c.address d.stop :=
    ((first.wider (by omega) (by omega)).trans (wiped.wider (by omega) (by omega))).trans
      (blanked.wider (by omega) (by omega))
  have after : SameOutside t₂ s' c.address d.stop :=
    (((second.wider (by omega) (by omega)).trans (data.wider (by omega) (by omega))).trans
      (third.wider (by omega) (by omega))).trans (fourth.wider (by omega) (by omega))
  have same := before.trans after
  refine ⟨s', ?_, same, ⟨?_, rfl, ?_, .inr ⟨.inl kind, inside, fun _ x above below => ?_⟩⟩,
    ⟨setBlock_self _ e (d.grown e k).block, rfl, ?_, .inl ⟨dFree, fun x above below => ?_⟩⟩, list, order, cut, top,
    fun x below => ?_⟩
  · rw [moves, Option.bind_some]
    simp only
    rw [writes, Option.bind_some, there]
    rfl
  · change s'.block c.address = some (c.sized units padding).block
    rw [fourth.block c.address (by omega)]
    exact setBlock_self t c.address (c.sized units padding).block
  · rw [same.cookie]
    exact cOk.cookie
  · change (c.sized units padding).stop - padding.toNat ≤ x at above
    rw [cut] at above below
    exact filled x above below
  · rw [same.cookie]
    exact dOk.cookie
  · rw [top] at below
    change e + 32 ≤ x at above
    change t.byte x = freedPadding
    rw [data.byte x (by omega)]
    by_cases inGap : x < e + 32 + 16 * k.toNat
    · change fill _ (e + 32) (e + 32 + 16 * k.toNat) (fun _ => freedPadding) x = freedPadding
      exact fill_inside above inGap
    · change t₂.byte x = freedPadding
      rw [blanked.byte x (by omega), wiped.byte x (by omega)]
      exact dOk.blank dFree x (by omega) below
  · change t.byte x = s.byte x
    rw [kept x below]
    change t₂.byte x = s.byte x
    rw [blanked.byte x (by omega), wiped.byte x (by omega)]
    rfl

theorem order_moved {l : Links Nat} (ring : Ring l expMemoryOrderBlockList ((front ++ c :: d :: back).map Cell.address))
    {move : Nat → Nat} (fresh : move d.address ∉ expMemoryOrderBlockList :: (front ++ c :: d :: back).map Cell.address)
    {c' d' : Cell} (same : c'.address = c.address) (there : d'.address = move d.address) :
    Ring (moveEntry l d.address move) expMemoryOrderBlockList ((front ++ c' :: d' :: back).map Cell.address) := by
  have parted : ∀ c d : Cell, (front ++ c :: d :: back).map Cell.address =
      (front.map Cell.address ++ [c.address]) ++ d.address :: back.map Cell.address := by
    intro c d
    rw [List.append_assoc, List.map_append]
    rfl
  rw [parted] at ring fresh
  rw [parted, same, there, moveEntry_eq ring fresh]
  exact ring_replace ring fresh

theorem listed_moved (ok : Layout padded s (front ++ c :: d :: back)) (busy : ¬c.isFree) (dFree : d.isFree)
    {move : Nat → Nat} (above : c.address < move d.address) (below : move d.address < c.stop) {c' d' : Cell}
    (busy' : ¬c'.isFree) (dFree' : d'.isFree) (same : c'.address = c.address) (there : d'.address = move d.address) :
    Listed (moveEntry s.list d.address move) (FreeAt (front ++ ([c', d'] ++ back)))
      (BusyAt (front ++ ([c', d'] ++ back))) := by
  obtain ⟨high, notFree, notBusy, _⟩ := ok.fresh above below
  obtain ⟨gap, next⟩ := ok.gap_two
  have dForward := cells_forward d
  have cForward := cells_forward c
  have old : ∀ x, FreeAt (front ++ c :: d :: back) x ↔ _ := fun x => freeAt_middle [c, d]
  have isFree := (old d.address).mpr (.inl (freeAt_two.mpr (.inr ⟨rfl, dFree⟩)))
  have replaced := ok.listed.replace ok.apart isFree high notFree notBusy
  apply replaced.congr
  · intro x
    have other : FreeAt (front ++ back) x → x ≠ d.address := by
      intro free
      have outside := gap.freeAway free
      omega
    rw [old, freeAt_middle [c', d'], freeAt_two, freeAt_two, same, there]
    grind
  · intro x
    have oldBusy : BusyAt (front ++ c :: d :: back) x ↔ _ := busyAt_middle [c, d]
    rw [oldBusy, busyAt_middle [c', d'], busyAt_two, busyAt_two, same, there]
    grind

/-- The end of the block goes to the free block behind it. -/
theorem realloc_shrink (ok : Sound padded s (front ++ c :: d :: back)) (kind : c.block.blockType = heapBlockAllocated)
    (dFree : d.isFree) {units : BitVec 32} {padding : BitVec 8} (fits : units ≤ c.block.size)
    (large : 2 ≤ (c.block.size - units).toNat) (inside : padding.toNat ≤ 16 * units.toNat) :
    ∃ s' d', ((moveHeaderBack s d.address (16 * (c.block.size - units).toNat) (c.block.size - units)).bind fun s =>
        let nextBlock := d.address - 16 * (c.block.size - units).toNat
        let b := { c.block with size := units, paddingSize := padding }
        ((s.setBlock c.address b).writeAllocPadding c.address).bind fun s =>
          (s.block nextBlock).map fun n =>
            (s.setBlock c.address (b.recalculated c.address)).setBlock nextBlock (n.recalculated nextBlock)) = some s' ∧
      Resizing padded s s' (front ++ c :: d :: back) (front ++ c.sized units padding :: d' :: back) c
        (c.sized units padding) := by
  have busy := Cell.in_use (.inl kind)
  obtain ⟨gap, next⟩ := ok.layout.gap_two
  have cForward := cells_forward c
  have dForward := cells_forward d
  obtain ⟨s', runs, same, cellOk, cellOk', list, order, cut, top, kept⟩ :=
    realloc_shrink_run ok.layout kind dFree fits large inside rfl
  have start : (c.sized units padding).stop = c.address + 32 + 16 * units.toNat := rfl
  have above : c.address < d.address - 16 * (c.block.size - units).toNat := by omega
  have below : d.address - 16 * (c.block.size - units).toNat < c.stop := by omega
  obtain ⟨_, _, _, fresh⟩ := ok.layout.fresh above below
  have layout := gap.fill [c.sized units padding, d.grown _ (c.block.size - units)] ⟨rfl, cut.symm, top⟩ same
    (List.forall_mem_cons.mpr ⟨cellOk, List.forall_mem_singleton.mpr cellOk'⟩)
    (by rw [order]; exact order_moved ok.layout.order fresh rfl rfl)
    (by rw [list]; exact listed_moved ok.layout busy dFree above below busy dFree rfl rfl)
  obtain ⟨mergedFront, mergedBack⟩ := (merged_busy busy).mp ok.merged
  obtain ⟨behind, mergedBack⟩ := List.isChain_cons.mp mergedBack
  have merged : Merged (front ++ c.sized units padding ::
      d.grown (d.address - 16 * (c.block.size - units).toNat) (c.block.size - units) :: back) := by
    apply (merged_busy (c := c.sized units padding) busy).mpr
    exact ⟨mergedFront, List.isChain_cons.mpr ⟨behind, mergedBack⟩⟩
  have resizing := gap.resizing (by omega) [d] [d.grown _ (c.block.size - units)]
    (List.forall_mem_singleton.mpr dFree) (List.forall_mem_singleton.mpr dFree) kind ⟨layout, merged⟩ same
    fun x _ inFront => kept x (cut ▸ inFront)
  exact ⟨s', _, runs, resizing⟩

end inPlace

section realloc

variable {headType : Heap → BitVec 8} (busyHead : ∀ s, headType s ≠ heapBlockFree)
  {s : Heap} {front back cells : List Cell} {c : Cell} {newSize : BitVec 32}

/-- The padding of a block that can be neither cut nor given away. -/
def keptPadding (c : Cell) (newSize : BitVec 32) : BitVec 8 :=
  c.block.paddingSize + (newSize - alignedUnits newSize * 16).setWidth 8

theorem keptPadding_toNat (small : newSize < 0xFFFFFFF1) : (keptPadding c newSize).toNat =
    (c.block.paddingSize.toNat + 256 - (16 * (alignedUnits newSize).toNat - newSize.toNat)) % 256 := by
  have aligned := alignedUnits_toNat small
  have below : newSize.toNat < 0xFFFFFFF1 := small
  have product : (alignedUnits newSize * 16).toNat = 16 * (alignedUnits newSize).toNat % 4294967296 := by
    rw [BitVec.toNat_mul]
    exact congrArg (· % 4294967296) (Nat.mul_comm _ _)
  unfold keptPadding
  rw [BitVec.toNat_add, BitVec.toNat_setWidth, BitVec.toNat_sub, product]
  omega

/-- Two units are too few for a block of their own, and the next block cannot have them. -/
def TwoLeft (c : Cell) (back : List Cell) (newSize : BitVec 32) : Prop :=
  c.block.size - alignedUnits newSize = 2 ∧ ∀ y ∈ back.head?, ¬y.isFree

/-- What is behind the new data is padding, but for two units that are left. -/
def Roomy (c c' : Cell) (back : List Cell) (newSize : BitVec 32) : Prop :=
  newSize.toNat + c'.block.paddingSize.toNat = 16 * c'.block.size.toNat ∨
    TwoLeft c back newSize ∧ c' = c.sized c.block.size (keptPadding c newSize)

include busyHead in
/-- The next block in memory order is free, or not, or there is none. -/
theorem next_type (ok : Layout padded s (front ++ c :: back)) :
    (∃ d rest, back = d :: rest ∧ d.isFree ∧ s.memoryOrderList.flink c.address = d.address ∧
      typeAt headType s d.address = some heapBlockFree) ∨
    (∀ y ∈ back.head?, ¬y.isFree) ∧
      ∃ t, typeAt headType s (s.memoryOrderList.flink c.address) = some t ∧ t ≠ heapBlockFree := by
  cases back with
  | nil =>
    right
    rw [ok.flink_last]
    exact ⟨nofun, headType s, if_pos rfl, busyHead s⟩
  | cons d rest =>
    have there := ok.typeAt (c := d) (List.mem_append_right _ (List.mem_cons_of_mem _ List.mem_cons_self)) headType
    by_cases free : d.isFree
    · rw [show d.block.blockType = heapBlockFree from free] at there
      exact .inl ⟨d, rest, rfl, free, ok.flink_next, there⟩
    · right
      rw [ok.flink_next]
      refine ⟨fun y isFirst => ?_, _, there, free⟩
      obtain rfl := Option.some.inj isFirst
      exact free

include busyHead in
theorem reallocInPlace_spec (ok : Sound padded s (front ++ c :: back)) (kind : c.block.blockType = heapBlockAllocated)
    (small : newSize < 0xFFFFFFF1) (fits : alignedUnits newSize ≤ c.block.size)
    (inside : TwoLeft c back newSize → (keptPadding c newSize).toNat ≤ 16 * c.block.size.toNat) :
    ∃ s' cells' c', reallocInPlace headType s c.address c.block newSize (alignedUnits newSize) = some s' ∧
      Resizing padded s s' (front ++ c :: back) cells' c c' ∧ c'.address = c.address ∧ Roomy c c' back newSize := by
  have aligned := alignedUnits_toNat small
  have units : (alignedUnits newSize).toNat ≤ c.block.size.toNat := fits
  have diff := BitVec.toNat_sub_of_le fits
  have cut : ((alignedUnits newSize * 16 - newSize).setWidth 8).toNat = 16 * (alignedUnits newSize).toNat - newSize.toNat :=
    padding_toNat (by omega) (by omega)
  unfold reallocInPlace
  by_cases close : c.block.size - alignedUnits newSize < 2
  · have near : (c.block.size - alignedUnits newSize).toNat < 2 := close
    have padding : ((c.block.size * 16 - newSize).setWidth 8).toNat = 16 * c.block.size.toNat - newSize.toNat :=
      padding_toNat (by omega) (by omega)
    obtain ⟨s', written, resizing, _⟩ := realloc_pad ok kind (Nat.le_trans (Nat.le_of_eq padding) (Nat.sub_le _ _))
    rw [if_pos close]
    refine ⟨s', _, _, written, resizing, rfl, .inl ?_⟩
    change newSize.toNat + ((c.block.size * 16 - newSize).setWidth 8).toNat = 16 * c.block.size.toNat
    omega
  · have far : ¬(c.block.size - alignedUnits newSize).toNat < 2 := close
    have room : newSize.toNat + ((alignedUnits newSize * 16 - newSize).setWidth 8).toNat =
        16 * (alignedUnits newSize).toNat := by omega
    rw [if_neg close]
    rcases next_type busyHead ok.layout with ⟨d, rest, rfl, free, next, there⟩ | ⟨behind, t, there, other⟩
    · obtain ⟨s', d', runs, resizing⟩ := realloc_shrink ok kind free fits (by omega) (by omega :
        ((alignedUnits newSize * 16 - newSize).setWidth 8).toNat ≤ 16 * (alignedUnits newSize).toNat)
      refine ⟨s', _, _, ?_, resizing, rfl, .inl room⟩
      simp only [next, there, Option.bind_some, if_true]
      exact runs
    · simp only [there, Option.bind_some, if_neg other]
      by_cases two : c.block.size - alignedUnits newSize = 2
      · obtain ⟨s', written, resizing, cellOk⟩ := realloc_pad ok kind (inside ⟨two, behind⟩)
        have valid : expCheckBlockValid s' c.address = true := cellOk.valid (.inl trivial)
        rw [if_pos two]
        refine ⟨s', _, _, ?_, resizing, rfl, .inr ⟨⟨two, behind⟩, rfl⟩⟩
        have runs : (((s.setBlock c.address (c.sized c.block.size (keptPadding c newSize)).block).writeAllocPadding
            c.address).bind fun s => if !expCheckBlockValid s c.address then none else some s) = some s' := by
          rw [written, Option.bind_some, valid]
          rfl
        exact runs
      · have more : (c.block.size - alignedUnits newSize).toNat ≠ 2 := fun same => two (BitVec.eq_of_toNat_eq same)
        obtain ⟨s', d, runs, resizing⟩ := realloc_split ok kind behind fits (by omega) (by omega :
          ((alignedUnits newSize * 16 - newSize).setWidth 8).toNat ≤ 16 * (alignedUnits newSize).toNat)
        rw [if_neg two]
        exact ⟨s', _, _, runs, resizing, rfl, .inl room⟩

/-- A block is as long as its data and its padding. -/
theorem Cell.dataLength (c : Cell) (inside : c.block.paddingSize.toNat ≤ 16 * c.block.size.toNat)
    (small : c.block.size.toNat < 0x100000) :
    (c.block.size * 16 - c.block.paddingSize.setWidth 32).toNat =
      16 * c.block.size.toNat - c.block.paddingSize.toNat := by
  have wide : (c.block.paddingSize.setWidth 32).toNat = c.block.paddingSize.toNat := by
    rw [BitVec.toNat_setWidth]
    omega
  bv_omega

include busyHead in
/-- The data goes to a new block, and the old one is freed. -/
theorem realloc_move (ok : Sound padded s cells) (member : c ∈ cells) (kind : c.block.blockType = heapBlockAllocated)
    {i : Cell} (inList : i ∈ cells) (free : i.isFree) (fits : Fits i newSize)
    (grows : ¬alignedUnits newSize ≤ c.block.size) :
    ∃ s' cells' c', ((expAllocateHeapInBlock s i.address newSize).bind fun r => (r.2.block c.address).bind fun b =>
        let s := r.2.memcpy r.1 (c.address + 32) (b.size * 16 - b.paddingSize.setWidth 32).toNat
        (expFreeHeapBlock headType s c.address).map fun s => (some r.1, s)) = some (some (c'.address + 32), s') ∧
      Resizing padded s s' cells cells' c c' ∧
      newSize.toNat + c'.block.paddingSize.toNat = 16 * c'.block.size.toNat := by
  have busy := Cell.in_use (.inl kind)
  have aligned := alignedUnits_toNat fits.small
  have larger : c.block.size.toNat < (alignedUnits newSize).toNat := Nat.lt_of_not_le grows
  have cSize := ok.layout.size_lt member
  have inside : c.block.paddingSize.toNat ≤ 16 * c.block.size.toNat := by
    rcases (ok.layout.cell c member).kind with ⟨isFree, _⟩ | ⟨_, within, _⟩
    · exact absurd isFree busy
    · exact within
  obtain ⟨t, cells₁, c', allocates, allocation⟩ := expAllocateHeapInBlock_spec ok inList free fits
  have room := allocation.room
  have cBusy : Busy cells₁ c := (allocation.busy c).mpr (.inl ⟨member, busy⟩)
  have newBusy : Busy cells₁ c' := (allocation.busy c').mpr (.inr rfl)
  have layout₁ := allocation.sound.layout
  have there := (layout₁.cell c cBusy.1).here
  have address := allocation.address
  have new : c' ≠ c := (allocation.ne_new ok.layout inList free ⟨member, busy⟩).symm
  have length := c.dataLength inside cSize
  have ends : c'.stop = c'.address + 32 + 16 * c'.block.size.toNat := rfl
  have cEnds : c.stop = c.address + 32 + 16 * c.block.size.toNat := rfl
  let u := t.memcpy (i.address + 32) (c.address + 32) (c.block.size * 16 - c.block.paddingSize.setWidth 32).toNat
  have copied := same_memcpy t (i.address + 32) (c.address + 32)
    (c.block.size * 16 - c.block.paddingSize.setWidth 32).toNat
  have layout : Layout padded u cells₁ :=
    layout₁.write newBusy.1 newBusy.2 copied (by omega) (by omega) (fun _ => by omega) rfl rfl
  obtain ⟨s', cells', frees, freeing⟩ := expFreeHeapBlock_spec busyHead ⟨layout, allocation.sound.merged⟩ cBusy
  refine ⟨s', cells', c', ?_, ⟨freeing.sound, allocation.kind, fun e => ?_, fun j within within' => ?_,
    fun e inUse ne x above below => ?_⟩, room⟩
  · rw [allocates, Option.bind_some, there, Option.bind_some, address]
    exact congrArg (Option.map _) frees
  · rw [freeing.busy, allocation.busy]
    constructor
    · rintro ⟨inUse | same, ne⟩
      · exact .inl ⟨inUse, ne⟩
      · exact .inr same
    · rintro (⟨inUse, ne⟩ | rfl)
      · exact ⟨.inl inUse, ne⟩
      · exact ⟨.inr rfl, new⟩
  · have source : u.byte (i.address + 32 + j) = t.byte (c.address + 32 + (i.address + 32 + j - (i.address + 32))) :=
      memcpy_inside (Nat.le_add_right _ _) (by omega)
    rw [(freeing.remains newBusy new).2 (c'.address + 32 + j) (by omega) (by omega), address, source,
      Nat.add_sub_cancel_left]
    exact (allocation.remains ok.layout inList free ⟨member, busy⟩).2 _ (by omega) (by omega)
  · obtain ⟨still, bytes⟩ := allocation.remains ok.layout inList free inUse
    have outside := layout₁.disjoint newBusy.1 still.1 (allocation.ne_new ok.layout inList free inUse)
    rw [(freeing.remains still ne).2 x above below, copied.byte x (by omega)]
    exact bytes x above below

include busyHead in
/-- Padding that is longer than its block runs over the header, which the check at the end sees. -/
theorem reallocInPlace_wiped (ok : Layout padded s (front ++ c :: back)) (two : TwoLeft c back newSize)
    (longer : 16 * c.block.size.toNat < (keptPadding c newSize).toNat) :
    reallocInPlace headType s c.address c.block newSize (alignedUnits newSize) = none := by
  have bounds := ok.gap_one.bounds
  have short := (keptPadding c newSize).isLt
  have far : ¬c.block.size - alignedUnits newSize < 2 := by
    rw [two.1]
    decide
  unfold reallocInPlace
  rw [if_neg far]
  rcases next_type busyHead ok with ⟨d, rest, rfl, free, _, _⟩ | ⟨_, t, there, other⟩
  · exact absurd free (two.2 d rfl)
  · simp only [there, Option.bind_some, if_neg other, if_pos two.1]
    let t := s.setBlock c.address (c.sized c.block.size (keptPadding c newSize)).block
    let u := t.memset (c.address + 32 + 16 * c.block.size.toNat - (keptPadding c newSize).toNat) allocatedPadding
      (keptPadding c newSize).toNat
    have written : t.writeAllocPadding c.address = some u := by
      unfold Heap.writeAllocPadding
      rw [show t.block c.address = some (c.sized c.block.size (keptPadding c newSize)).block from setBlock_self s _ _]
      rfl
    have wiped : u.block c.address = none := by
      unfold expHeapArea at bounds
      exact if_pos (by omega)
    have runs : (t.writeAllocPadding c.address).bind (fun s =>
        if !expCheckBlockValid s c.address then none else some s) = none := by
      rw [written, Option.bind_some]
      unfold expCheckBlockValid
      rw [wiped]
      rfl
    exact runs

/-- A reallocation that neither takes units from the next block nor pads the block over its data. -/
structure Stays (headType : Heap → BitVec 8) (s : Heap) (c : Cell) (back : List Cell) (newSize : BitVec 32) : Prop where
  small : newSize < 0xFFFFFFF1
  inside : TwoLeft c back newSize → (keptPadding c newSize).toNat ≤ 16 * c.block.size.toNat
  grows : ¬alignedUnits newSize ≤ c.block.size →
    growsInPlace headType s c.address c.block (alignedUnits newSize) ≠ some true

include busyHead in
theorem growsInPlace_some (ok : Layout padded s (front ++ c :: back)) (nSize : BitVec 32) :
    ∃ grows, growsInPlace headType s c.address c.block nSize = some grows := by
  unfold growsInPlace
  rcases next_type busyHead ok with ⟨d, rest, rfl, _, next, there⟩ | ⟨_, t, there, other⟩
  · have dOk := ok.cell d (List.mem_append_right _ (List.mem_cons_of_mem _ List.mem_cons_self))
    simp only [next, there, Option.bind_some, dOk.here, Option.map_some]
    exact ⟨_, rfl⟩
  · simp only [there, Option.bind_some, if_pos other]
    exact ⟨false, rfl⟩

theorem exReallocHeap_eq (ok : CellOk padded s c) (kind : c.block.blockType = heapBlockAllocated)
    (valid : expCheckBlockValid s c.address = true) (headType : Heap → BitVec 8) :
    exReallocHeap headType s (c.address + 32) newSize =
      if alignedUnits newSize ≤ c.block.size then
        (reallocInPlace headType s c.address c.block newSize (alignedUnits newSize)).map fun s => (some (c.address + 32), s)
      else (growsInPlace headType s c.address c.block (alignedUnits newSize)).bind fun grows =>
        if grows then none
        else (expFindIdealBlock s newSize).bind fun
          | none => some (none, s)
          | some idealBlock =>
            (expAllocateHeapInBlock s idealBlock newSize).bind fun r => (r.2.block c.address).bind fun b =>
              let s := r.2.memcpy r.1 (c.address + 32) (b.size * 16 - b.paddingSize.setWidth 32).toNat
              (expFreeHeapBlock headType s c.address).map fun s => (some r.1, s) := by
  unfold exReallocHeap
  simp only [Nat.add_sub_cancel, ok.here, Option.bind_some, kind, valid]
  rfl

include busyHead in
/-- A reallocation that returns has done none of what stops the kernel. -/
theorem returned_stays (ok : Layout padded s (front ++ c :: back))
    (kind : c.block.blockType = heapBlockAllocated) (valid : expCheckBlockValid s c.address = true)
    (small : newSize < 0xFFFFFFF1) (returns : exReallocHeap headType s (c.address + 32) newSize ≠ none) :
    Stays headType s c back newSize := by
  rw [exReallocHeap_eq ok.ok kind valid] at returns
  refine ⟨small, fun two => ?_, fun larger grown => ?_⟩
  · by_contra longer
    have units : alignedUnits newSize + 2 = c.block.size := by
      rw [← two.1]
      bv_omega
    have aligned := alignedUnits_toNat small
    have fits : alignedUnits newSize ≤ c.block.size := by
      rw [← units]
      bv_omega
    rw [if_pos fits, reallocInPlace_wiped busyHead ok two (Nat.lt_of_not_le longer)] at returns
    exact returns rfl
  · rw [if_neg larger, grown] at returns
    exact returns rfl

include busyHead in
/-- ExReallocHeap changes the block's sizes, moves it to the block that an allocation would get, or changes nothing. -/
theorem exReallocHeap_spec (ok : Sound padded s (front ++ c :: back)) (kind : c.block.blockType = heapBlockAllocated)
    (valid : expCheckBlockValid s c.address = true) (stays : Stays headType s c back newSize) :
    (exReallocHeap headType s (c.address + 32) newSize = some (none, s) ∧
      ∀ d ∈ front ++ c :: back, d.isFree → ¬alignedUnits newSize ≤ d.block.size) ∨
    ∃ s' cells' c', exReallocHeap headType s (c.address + 32) newSize = some (some (c'.address + 32), s') ∧
      Resizing padded s s' (front ++ c :: back) cells' c c' ∧ Roomy c c' back newSize := by
  rw [exReallocHeap_eq ok.layout.ok kind valid]
  by_cases fits : alignedUnits newSize ≤ c.block.size
  · obtain ⟨s', cells', c', resizes, resizing, address, roomy⟩ :=
      reallocInPlace_spec busyHead ok kind stays.small fits stays.inside
    right
    refine ⟨s', cells', c', ?_, resizing, roomy⟩
    rw [if_pos fits, resizes, address]
    rfl
  · obtain ⟨grows, found⟩ := growsInPlace_some busyHead ok.layout (alignedUnits newSize)
    have notGrown : grows = false := by
      apply Bool.eq_false_iff.mpr
      rintro rfl
      exact stays.grows fits found
    rw [if_neg fits, found, notGrown]
    simp only [Option.bind_some, Bool.false_eq_true, if_false]
    rcases expFindIdealBlock_spec ok.layout newSize with ⟨search, noBlock⟩ | ⟨i, search, ideal⟩
    · left
      rw [search]
      exact ⟨rfl, noBlock⟩
    · obtain ⟨s', cells', c', moves, resizing, room⟩ := realloc_move busyHead ok
        (List.mem_append_right _ List.mem_cons_self) kind ideal.member ideal.free ⟨stays.small, ideal.large⟩ fits
      right
      rw [search]
      exact ⟨s', cells', c', moves, resizing, .inl room⟩

end realloc

end Gr8os.Ex
