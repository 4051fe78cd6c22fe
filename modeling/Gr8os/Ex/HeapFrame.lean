import Gr8os.Ex.HeapRuns

/-! What a call of the heap leaves of the blocks that it is not about, and what a new block is like. -/
namespace Gr8os.Ex

open Intrusive Ke Bytes Tiling Runs

variable {padded padded' : Prop} {s s' : Heap} {front back cells cells' : List Cell} {c d : Cell}

theorem Layout.unique (one : Layout padded s cells) (two : Layout padded' s cells') : cells = cells' := by
  have addresses : cells.map Cell.address = cells'.map Cell.address := ring_unique one.order two.order
  have headers : ∀ {padded : Prop} {cells : List Cell}, Layout padded s cells →
      cells.map (fun c => (c.address, some c.block)) = (cells.map Cell.address).map fun a => (a, s.block a) := by
    intro padded cells ok
    rw [List.map_map]
    apply List.map_congr_left
    intro c member
    exact congrArg (Prod.mk c.address) (ok.cell c member).here.symm
  have injective : Function.Injective fun c : Cell => (c.address, some c.block) := by
    rintro ⟨a, b⟩ ⟨a', b'⟩ same
    cases same
    rfl
  apply List.map_injective_iff.mpr injective
  rw [headers one, headers two, addresses]

theorem CellOk.frame_bytes (ok : CellOk True s d) (after : CellOk padded s' d)
    (bytes : ∀ x, d.address ≤ x → x < d.stop → s'.byte x = s.byte x) : CellOk True s' d := by
  have stop : d.stop = d.address + 32 + 16 * d.block.size.toNat := rfl
  refine ⟨after.here, after.sealed, after.cookie, ?_⟩
  rcases ok.kind with ⟨free, blank⟩ | ⟨busy, inside, pattern⟩
  · left
    refine ⟨free, fun x above below => ?_⟩
    rw [bytes x (by omega) below]
    exact blank x above below
  · right
    refine ⟨busy, inside, fun _ x above below => ?_⟩
    rw [bytes x (by omega) below]
    exact pattern trivial x above below

section calls

variable {headType : Heap → BitVec 8} {size newSize : BitVec 32}

theorem Resizing.remains {c' : Cell} (resizing : Resizing padded s s' cells cells' c c') (inUse : Busy cells d)
    (other : d ≠ c) : Remains s s' cells' d :=
  ⟨(resizing.busy d).mpr (.inl ⟨inUse, other⟩), resizing.others d inUse other⟩

/-- Padding is written into the block, whose header stays or is gone. -/
theorem padding_written {a : Nat} {b : EheapBlock} (writes : (s.setBlock a b).writeAllocPadding a = some s') :
    (∀ b', s'.block a = some b' → b' = b) ∧
      Filled s'.byte (a + 32 + 16 * b.size.toNat - b.paddingSize.toNat)
        (a + 32 + 16 * b.size.toNat - b.paddingSize.toNat + b.paddingSize.toNat) allocatedPadding := by
  have set : (s.setBlock a b).block a = some b := setBlock_self s a b
  unfold Heap.writeAllocPadding at writes
  rw [set] at writes
  obtain rfl := Option.some.inj writes
  constructor
  · intro b' here
    simp only [Heap.memset, set] at here
    split at here
    · contradiction
    · exact (Option.some.inj here).symm
  · intro x above below
    exact fill_inside (f := fun _ => allocatedPadding) above below

theorem allocateInBlock_padded {p : Nat} (runs : expAllocateHeapInBlock s c.address size = some (p, s')) {c' : Cell}
    (address : c'.address = c.address) (ok : CellOk padded s' c') (kind : c'.block.blockType = heapBlockAllocated) :
    CellOk True s' c' := by
  have inside : c'.block.paddingSize.toNat ≤ 16 * c'.block.size.toNat := by
    rcases ok.kind with ⟨free, _⟩ | ⟨_, inside, _⟩
    · exact absurd free (Cell.in_use (.inl kind))
    · exact inside
  have here := ok.here
  rw [address] at here
  suffices filled : Filled s'.byte (c.address + 32 + 16 * c'.block.size.toNat - c'.block.paddingSize.toNat)
      (c.address + 32 + 16 * c'.block.size.toNat - c'.block.paddingSize.toNat + c'.block.paddingSize.toNat)
      allocatedPadding by
    rw [Nat.sub_add_cancel (by omega), ← address] at filled
    exact ⟨ok.here, ok.sealed, ok.cookie, .inr ⟨.inl kind, inside, fun _ => filled⟩⟩
  obtain ⟨b, _, runs⟩ := Option.bind_eq_some_iff.mp runs
  simp only at runs
  split at runs
  · obtain ⟨t, writes, same⟩ := Option.map_eq_some_iff.mp runs
    obtain rfl := (Prod.mk.inj same).2
    obtain ⟨header, filled⟩ := padding_written writes
    rw [header _ here]
    exact filled
  · obtain ⟨t, writes, same⟩ := Option.map_eq_some_iff.mp runs
    obtain rfl := (Prod.mk.inj same).2
    obtain ⟨header, filled⟩ := padding_written writes
    have behind : c.address ≠ c.address + 32 + 16 * (alignedUnits size).toNat := by omega
    rw [header _ ((if_neg behind).symm.trans here)]
    exact filled

end calls

section clients

variable {headType : Heap → BitVec 8} {exactly : Bool} {h t : HeapState} {call : HeapCall}

/-- A block whose header, bytes and holder stay is in use still. -/
theorem Kept.remains (kept : Kept exactly h cells) (after : Kept exactly t cells') (inUse : Busy cells d)
    (held : t.held (d.address + 32) = h.held (d.address + 32)) (header : t.heap.block d.address = h.heap.block d.address)
    (bytes : ∀ x, d.address ≤ x → x < d.stop → t.heap.byte x = h.heap.byte x) : Remains h.heap t.heap cells' d := by
  obtain ⟨g, holds⟩ := kept.busy d inUse
  rw [← held] at holds
  obtain ⟨e, member, busy, place, cellOk, _⟩ := after.grant holds
  have address : d.address = e.address := Nat.add_right_cancel place
  have here := cellOk.here
  rw [← address, header, (kept.sound.layout.cell d inUse.1).here] at here
  obtain rfl : d = e := by
    cases d
    cases e
    cases address
    cases here
    rfl
  exact ⟨⟨member, busy⟩, bytes⟩

theorem header_call {a : Nat} {refused : EheapBlock → Prop} [DecidablePred refused] {header : EheapBlock → EheapBlock}
    (runs : ((s.block a).bind fun b => if refused b then none
      else if !expCheckBlockValid s a then none else some (s.setBlock a (header b))) = some s') :
    ∃ b, s' = s.setBlock a b := by
  obtain ⟨b, _, runs⟩ := Option.bind_eq_some_iff.mp runs
  split at runs
  · contradiction
  · split at runs
    · contradiction
    · exact ⟨_, (Option.some.inj runs).symm⟩

theorem Kept.header_written (kept : Kept exactly h cells) {ptr : Nat} {b : EheapBlock} {g : Option Grant}
    (after : Kept exactly ⟨h.heap.setBlock (ptr - 32) b, Function.update h.held ptr g⟩ cells') (inUse : Busy cells d)
    (place : 32 ≤ ptr) (other : ptr ≠ d.address + 32) : Remains h.heap (h.heap.setBlock (ptr - 32) b) cells' d := by
  have away : d.address ≠ ptr - 32 := by omega
  have still := kept.remains after inUse (Function.update_of_ne (Ne.symm other) _ _) (if_neg away) fun _ _ _ => rfl
  exact still

theorem call_remains (busyHead : ∀ s, headType s ≠ heapBlockFree) (kept : Kept exactly h cells)
    (after : Kept exactly t cells') (live : Live exactly h call) (careful : Careful headType exactly h call)
    (step : h.call headType call = some t) (inUse : Busy cells d) (other : call.pointer ≠ some (d.address + 32)) :
    Remains h.heap t.heap cells' d := by
  have unique {padded : Prop} {cells : List Cell} (ok : Layout padded t.heap cells) : cells = cells' :=
    ok.unique after.sound.layout
  cases call with
  | allocate size =>
    obtain ⟨⟨result, heap⟩, runs, rfl⟩ := Option.map_eq_some_iff.mp step
    have nothing (unchanged : exAllocateHeap h.heap size = some (none, h.heap)) : Remains h.heap heap cells' d := by
      rw [runs] at unchanged
      cases unchanged
      obtain rfl := unique kept.sound.layout
      exact ⟨inUse, fun _ _ _ => rfl⟩
    rcases careful with small | empty
    · rcases exAllocateHeap_spec kept.sound small with ⟨unchanged, _⟩ | ⟨c, heap', cells₁, c', found, ideal, allocation⟩
      · exact nothing unchanged
      · rw [runs] at found
        cases found
        obtain rfl := unique allocation.sound.layout
        exact allocation.remains kept.sound.layout ideal.member ideal.free inUse
    · exact nothing (exAllocateHeap_full kept.sound (no_free kept.sound.layout empty))
  | realloc ptr newSize =>
    have checked := call_checked step ptr rfl
    obtain ⟨g, holds, unlocked⟩ := live
    obtain ⟨c, member, _, rfl, _, kind, _⟩ := kept.grant holds
    obtain ⟨⟨result, heap⟩, runs, rfl⟩ := Option.map_eq_some_iff.mp step
    rw [unlocked] at kind
    rw [Nat.add_sub_cancel] at checked
    obtain ⟨front, back, rfl⟩ := List.append_of_mem member
    have returns : exReallocHeap headType h.heap (c.address + 32) newSize ≠ none := by
      rw [runs]
      exact Option.some_ne_none _
    have stays := returned_stays busyHead kept.sound.layout kind checked careful.1 returns
    rcases exReallocHeap_spec busyHead kept.sound kind checked stays with
      ⟨unchanged, _⟩ | ⟨heap', cells₁, c', found, resizing, _⟩
    · rw [runs] at unchanged
      cases unchanged
      obtain rfl := unique kept.sound.layout
      exact ⟨inUse, fun _ _ _ => rfl⟩
    · rw [runs] at found
      cases found
      obtain rfl := unique resizing.sound.layout
      exact resizing.remains inUse fun same => other (same ▸ rfl)
  | free ptr =>
    have checked := call_checked step ptr rfl
    obtain ⟨g, holds, unlocked⟩ := live
    obtain ⟨c, member, _, rfl, _, kind, _⟩ := kept.grant holds
    obtain ⟨heap, runs, rfl⟩ := Option.map_eq_some_iff.mp step
    rw [unlocked] at kind
    rw [Nat.add_sub_cancel] at checked
    obtain ⟨heap', cells₁, frees, freeing⟩ := exFreeHeap_spec busyHead kept.sound member kind checked
    rw [runs] at frees
    cases frees
    obtain rfl := unique freeing.sound.layout
    exact freeing.remains inUse fun same => other (same ▸ rfl)
  | lock ptr =>
    obtain ⟨g, holds, _⟩ := live
    obtain ⟨c, _, _, place, _⟩ := kept.grant holds
    obtain ⟨heap, runs, rfl⟩ := Option.map_eq_some_iff.mp step
    unfold exLockHeapBlock at runs
    obtain ⟨b, rfl⟩ := header_call runs
    exact kept.header_written after inUse (by omega) fun same => other (congrArg some same)
  | unlock ptr =>
    obtain ⟨g, holds, _⟩ := live
    obtain ⟨c, _, _, place, _⟩ := kept.grant holds
    obtain ⟨heap, runs, rfl⟩ := Option.map_eq_some_iff.mp step
    unfold exUnlockHeapBlock at runs
    obtain ⟨b, rfl⟩ := header_call runs
    exact kept.header_written after inUse (by omega) fun same => other (congrArg some same)
  | write ptr i value =>
    obtain ⟨c, member, _, place, below, _⟩ := kept.written live
    obtain rfl := Option.some.inj step
    have notHere : d ≠ c := by
      rintro rfl
      exact other (congrArg some place)
    have apart := kept.sound.layout.disjoint member inUse.1 notHere
    have same := same_memset h.heap (ptr + i) value 1
    have stop : d.stop = d.address + 32 + 16 * d.block.size.toNat := rfl
    have still := kept.remains after inUse rfl (same.block d.address (by omega)) fun x _ _ => same.byte x (by omega)
    exact still

end clients

end Gr8os.Ex
