import Gr8os.Ex.HeapCalls
import Gr8os.Ex.HeapFrame
import Gr8os.Ex.HeapGuard

/-! Whether the guard's table has exactly the blocks of the region that are still allocated. -/
namespace Gr8os.Ex.HeapGuard

open Intrusive Ke Bytes Tiling Runs

section table

variable {t t' : EheapGuardTable} {a b : Nat} {entries : List (Option Nat)}

/-- The blocks that the table has. -/
def EheapGuardTable.blocks (t : EheapGuardTable) : List Nat := t.entries.filterMap id

theorem mem_blocks : a ∈ t.blocks ↔ some a ∈ t.entries := by
  simp only [EheapGuardTable.blocks, List.mem_filterMap, id_eq, exists_eq_right]

theorem replace_none (room : none ∈ entries) :
    ((entries.replace none (some a)).filterMap id).Perm (a :: entries.filterMap id) := by
  induction entries with
  | nil => contradiction
  | cons e entries ih =>
    cases e with
    | none =>
      rw [List.replace_cons_self]
      exact .refl _
    | some b =>
      have later : none ∈ entries := (List.mem_cons.mp room).resolve_left nofun
      exact ((ih later).cons b).trans (.swap a b _)

theorem replace_some : (entries.replace (some a) none).filterMap id = (entries.filterMap id).erase a := by
  induction entries with
  | nil => rfl
  | cons e entries ih =>
    cases e with
    | none => exact ih
    | some b =>
      by_cases same : b = a
      · rw [same, List.replace_cons_self]
        exact (List.erase_cons_head a _).symm
      · have later : (some b :: entries).replace (some a) none = some b :: entries.replace (some a) none := by
          have other : (a == b) = false := beq_eq_false_iff_ne.mpr (Ne.symm same)
          simp [List.replace_cons, other]
        rw [later]
        exact (congrArg (b :: ·) ih).trans (List.erase_cons_tail (by simpa using same)).symm

theorem expLogFreeing_blocks (t : EheapGuardTable) (a : Nat) : (expLogFreeing t a).blocks = t.blocks.erase a := replace_some

theorem expLogFreeing_absent (absent : a ∉ t.blocks) : expLogFreeing t a = t := by
  unfold expLogFreeing
  rw [List.replace_of_not_mem fun member => absent (mem_blocks.mpr member)]

theorem expLogRellocation_absent (absent : a ∉ t.blocks) : expLogRellocation t a b = t := by
  unfold expLogRellocation
  rw [List.replace_of_not_mem fun member => absent (mem_blocks.mpr member)]

theorem expLogAllocation_blocks (logs : expLogAllocation t a = some t') :
    t'.blocks.Perm (a :: t.blocks) ∧ t'.guardTable = t.guardTable ∧ t'.table = t.table := by
  unfold expLogAllocation at logs
  split at logs
  · rename_i room
    obtain rfl := Option.some.inj logs
    exact ⟨replace_none room, rfl, rfl⟩
  · contradiction

end table

section logs

variable {guard guard' : Guard} {a b : Nat}

/-- The thread's table has the block. -/
def Guard.holds (guard : Guard) (a : Nat) : Prop := ∃ t ∈ guard, a ∈ t.blocks

theorem logFreeing_absent (absent : ¬guard.holds a) : guard.logFreeing a = guard := by
  cases guard with
  | none => rfl
  | some t => exact congrArg some (expLogFreeing_absent fun member => absent ⟨t, rfl, member⟩)

theorem logRellocation_absent (absent : ¬guard.holds a) : guard.logRellocation a b = guard := by
  cases guard with
  | none => rfl
  | some t => exact congrArg some (expLogRellocation_absent fun member => absent ⟨t, rfl, member⟩)

theorem logAllocation_holds (logs : guard.logAllocation a = some guard') (x : Nat) :
    guard'.holds x → guard.holds x ∨ x = a := by
  rintro ⟨t', rfl, member⟩
  cases guard with
  | none => cases logs
  | some t =>
    obtain ⟨t₁, added, same⟩ := Option.map_eq_some_iff.mp logs
    obtain rfl := Option.some.inj same
    rcases List.mem_cons.mp ((expLogAllocation_blocks added).1.mem_iff.mp member) with rfl | member
    · exact .inr rfl
    · exact .inl ⟨t, rfl, member⟩

end logs

section free

variable {headType : Heap → BitVec 8} {s s' : Heap} {guard : Guard} {a p c : Nat} {x : Nat}

/-- No header of a free block is at `x`. -/
def InUse (s : Heap) (x : Nat) : Prop := ∀ b, s.block x = some b → b.blockType ≠ heapBlockFree

theorem InUse.setBlock (inUse : InUse s x) {b : EheapBlock} (other : x = a → b.blockType ≠ heapBlockFree) :
    InUse (s.setBlock a b) x := by
  intro b' here
  unfold Heap.setBlock at here
  simp only at here
  split at here
  · rename_i same
    obtain rfl := Option.some.inj here
    exact other same
  · exact inUse b' here

theorem InUse.overwritten (inUse : InUse s x) {gone : Prop} [Decidable gone]
    (block : s'.block x = if gone then none else s.block x) : InUse s' x := by
  intro b here
  rw [block] at here
  split at here
  · contradiction
  · exact inUse b here

theorem InUse.merged (inUse : InUse s x) (merges : mergeBlocks s p c = some s') : InUse s' x := by
  obtain ⟨bp, there, merges⟩ := Option.bind_eq_some_iff.mp merges
  obtain ⟨bc, _, rfl⟩ := Option.map_eq_some_iff.mp merges
  have set : InUse (s.setBlock p (EheapBlock.recalculated { bp with size := bp.size + (bc.size + 2) } p)) x := by
    apply inUse.setBlock
    rintro rfl
    exact inUse bp there
  exact set.overwritten rfl

/-- A walk takes in free blocks only, and the table has none of these. -/
theorem walkDown_logs (busyHead : ∀ s, headType s ≠ heapBlockFree) (inUse : ∀ x, guard.holds x → InUse s x) (fuel : Nat) :
    walkDown headType fuel s guard p c = (Ex.walkDown headType fuel s p c).map (·, guard) := by
  induction fuel generalizing s c with
  | zero => rfl
  | succ fuel ih =>
    rw [walkDown, Ex.walkDown]
    cases here : typeAt headType s c with
    | none => rfl
    | some blockType =>
      simp only [Option.bind_some]
      by_cases free : blockType = heapBlockFree
      · subst free
        cases merges : mergeBlocks s p c with
        | none => rfl
        | some s' =>
          have absent : ¬guard.holds c := by
            intro held
            unfold typeAt at here
            split at here
            · exact busyHead s (Option.some.inj here)
            · obtain ⟨b, there, free⟩ := Option.map_eq_some_iff.mp here
              exact inUse c held b there free
          simp only [ne_eq, not_true, if_false, Option.bind_some, logFreeing_absent absent]
          split
          · rfl
          · exact ih fun x held => (inUse x held).merged merges
      · simp only [ne_eq, free, not_false_iff, if_true]
        rfl

theorem walkUp_logs (absent : ¬guard.holds p) (fuel : Nat) :
    walkUp headType fuel s guard p c = (Ex.walkUp headType fuel s p c).map (·, guard) := by
  induction fuel generalizing s c with
  | zero => rfl
  | succ fuel ih =>
    rw [walkUp, Ex.walkUp]
    cases here : typeAt headType s c with
    | none => rfl
    | some blockType =>
      simp only [Option.bind_some]
      by_cases free : blockType = heapBlockFree
      · subst free
        cases merges : mergeBlocks s c p with
        | none => rfl
        | some s' =>
          simp only [ne_eq, not_true, if_false, Option.bind_some, logFreeing_absent absent]
          split
          · rfl
          · exact ih
      · simp only [ne_eq, free, not_false_iff, if_true]
        rfl

theorem walks_log (busyHead : ∀ s, headType s ≠ heapBlockFree) (absent : ¬guard.holds a)
    (inUse : ∀ x, guard.holds x → InUse s x) (fuel : Nat) :
    ((walkDown headType fuel s guard a (s.memoryOrderList.flink a)).bind fun r =>
        walkUp headType fuel r.1 r.2 a (r.1.memoryOrderList.blink a)) =
      ((Ex.walkDown headType fuel s a (s.memoryOrderList.flink a)).bind fun s =>
        Ex.walkUp headType fuel s a (s.memoryOrderList.blink a)).map (·, guard) := by
  rw [walkDown_logs busyHead inUse fuel]
  cases Ex.walkDown headType fuel s a (s.memoryOrderList.flink a) with
  | none => rfl
  | some t => exact walkUp_logs absent fuel

theorem expRebuildFreeBlocks_logs (busyHead : ∀ s, headType s ≠ heapBlockFree) (absent : ¬guard.holds a)
    (inUse : ∀ x, guard.holds x → InUse s x) :
    expRebuildFreeBlocks headType s guard a = (Ex.expRebuildFreeBlocks headType s a).map (·, guard) := by
  have walks := walks_log busyHead absent inUse heapBlocks
  unfold expRebuildFreeBlocks Ex.expRebuildFreeBlocks
  rw [walks]
  cases expCheckBlockValid s a
  · rfl
  · rfl

/-- Freeing logs the freed block, and nothing else that is in the table. -/
theorem expFreeHeapBlock_logs (busyHead : ∀ s, headType s ≠ heapBlockFree) (gone : ¬(guard.logFreeing a).holds a)
    (inUse : ∀ x, (guard.logFreeing a).holds x → InUse s x) :
    expFreeHeapBlock headType s guard a = (Ex.expFreeHeapBlock headType s a).map (·, guard.logFreeing a) := by
  unfold expFreeHeapBlock Ex.expFreeHeapBlock
  cases s.block a with
  | none => rfl
  | some b =>
    let t := (s.setBlock a (EheapBlock.recalculated { b with blockType := heapBlockFree } a)).moveTo expFreeBlockList a
    have typed : ∀ x, (guard.logFreeing a).holds x → InUse t x := by
      intro x held
      have other : x ≠ a := fun same => gone (same ▸ held)
      exact (inUse x held).setBlock fun same => absurd same other
    have padded : (t.writeFreedPadding a).bind (fun s => expRebuildFreeBlocks headType s (guard.logFreeing a) a) =
        ((t.writeFreedPadding a).bind fun s => Ex.expRebuildFreeBlocks headType s a).map (·, guard.logFreeing a) := by
      rw [Option.map_bind]
      apply Option.bind_congr
      intro u written
      obtain ⟨b, _, rfl⟩ := Option.map_eq_some_iff.mp written
      exact expRebuildFreeBlocks_logs busyHead gone fun x held => (typed x held).overwritten rfl
    exact padded

theorem exFreeHeap_logs {ptr : Nat} (busyHead : ∀ s, headType s ≠ heapBlockFree)
    (gone : ¬(guard.logFreeing (ptr - 32)).holds (ptr - 32))
    (inUse : ∀ x, (guard.logFreeing (ptr - 32)).holds x → InUse s x) :
    exFreeHeap headType s guard ptr = (Ex.exFreeHeap headType s ptr).map (·, guard.logFreeing (ptr - 32)) := by
  unfold exFreeHeap Ex.exFreeHeap
  simp only
  split
  · rfl
  · cases s.block (ptr - 32) with
    | none => rfl
    | some b =>
      simp only [Option.bind_some]
      split
      · rfl
      · exact expFreeHeapBlock_logs busyHead gone inUse

end free

section allocate

variable {padded : Prop} {s s' : Heap} {cells : List Cell} {guard guard' : Guard} {r : Option Nat} {size : BitVec 32}

/-- What a call that may allocate a block does to the table: nothing, or it logs a block that was free. -/
def Logged (cells : List Cell) (guard guard' : Guard) (r ptr : Option Nat) : Prop :=
  guard' = guard ∧ (r = none ∨ r = ptr) ∨
    ∃ i ∈ cells, i.isFree ∧ r = some (i.address + 32) ∧ guard.logAllocation i.address = some guard'

theorem allocateInBlock_place {a p : Nat} (runs : Ex.expAllocateHeapInBlock s a size = some (p, s')) : p = a + 32 := by
  obtain ⟨b, here, _⟩ := Option.bind_eq_some_iff.mp runs
  obtain ⟨t, returns⟩ := allocateInBlock_returns size here
  rw [runs] at returns
  exact (Prod.mk.inj (Option.some.inj returns)).1

theorem exAllocateHeap_logs (ok : Layout padded s cells) (runs : exAllocateHeap s guard size = some (r, s', guard')) :
    Ex.exAllocateHeap s size = some (r, s') ∧ Logged cells guard guard' r none := by
  unfold exAllocateHeap at runs
  unfold Ex.exAllocateHeap
  rcases expFindIdealBlock_spec ok size with ⟨search, _⟩ | ⟨i, search, ideal⟩
  · rw [search] at runs ⊢
    cases runs
    exact ⟨rfl, .inl ⟨rfl, .inl rfl⟩⟩
  · rw [search] at runs ⊢
    simp only [Option.bind_some] at runs ⊢
    obtain ⟨r₁, allocates, same⟩ := Option.map_eq_some_iff.mp runs
    obtain ⟨⟨p, t⟩, plain, allocates⟩ := Option.bind_eq_some_iff.mp allocates
    obtain ⟨guard₁, logs, rfl⟩ := Option.map_eq_some_iff.mp allocates
    cases same
    rw [plain, allocateInBlock_place plain]
    exact ⟨rfl, .inr ⟨i, ideal.member, ideal.free, rfl, logs⟩⟩

end allocate

section realloc

variable {headType : Heap → BitVec 8} {padded : Prop} {s s' : Heap} {cells : List Cell} {c d : Cell}
  {guard guard' : Guard} {r : Option Nat} {newSize : BitVec 32}

theorem inUse_of_busy (ok : Layout padded s cells) (busy : Busy cells d) : InUse s d.address := by
  intro b here
  rw [(ok.cell d busy.1).here] at here
  obtain rfl := Option.some.inj here
  exact busy.2

/-- The table's blocks are blocks in use. -/
def Guard.Within (guard : Guard) (cells : List Cell) : Prop := ∀ x, guard.holds x → ∃ d, Busy cells d ∧ d.address = x

/-- The move of a block that is not in the table logs the new block. -/
theorem move_logs (busyHead : ∀ s, headType s ≠ heapBlockFree) (ok : Sound padded s cells) (busy : Busy cells c)
    (within : guard.Within cells) (absent : ¬guard.holds c.address) {i : Cell} (ideal : Ideal cells newSize i)
    (small : newSize < 0xFFFFFFF1)
    (runs : ((expAllocateHeapInBlock s guard i.address newSize).bind fun r => (r.2.1.block c.address).bind fun b =>
      let s := r.2.1.memcpy r.1 (c.address + 32) (b.size * 16 - b.paddingSize.setWidth 32).toNat
      (expFreeHeapBlock headType s (r.2.2.logRellocation c.address i.address) c.address).map
        fun freed => (some r.1, freed)) = some (r, s', guard')) :
    ((Ex.expAllocateHeapInBlock s i.address newSize).bind fun r => (r.2.block c.address).bind fun b =>
      let s := r.2.memcpy r.1 (c.address + 32) (b.size * 16 - b.paddingSize.setWidth 32).toNat
      (Ex.expFreeHeapBlock headType s c.address).map fun s => (some r.1, s)) = some (r, s') ∧
      r = some (i.address + 32) ∧ guard.logAllocation i.address = some guard' := by
  obtain ⟨t, cells₁, c', allocates, allocation⟩ :=
    expAllocateHeapInBlock_spec ok ideal.member ideal.free ⟨small, ideal.large⟩
  obtain ⟨⟨p, t₁, guard₁⟩, allocated, runs⟩ := Option.bind_eq_some_iff.mp runs
  obtain ⟨⟨p₁, t₂⟩, plain, logged⟩ := Option.bind_eq_some_iff.mp allocated
  obtain ⟨guard₂, logs, same⟩ := Option.map_eq_some_iff.mp logged
  rw [allocates] at plain
  cases plain
  cases same
  obtain ⟨b, here, runs⟩ := Option.bind_eq_some_iff.mp runs
  have held : ∀ x, guard₁.holds x → ∃ e, Busy cells₁ e ∧ e.address = x := by
    intro x holds
    rcases logAllocation_holds logs x holds with old | rfl
    · obtain ⟨e, inUse, rfl⟩ := within x old
      exact ⟨e, (allocation.busy e).mpr (.inl inUse), rfl⟩
    · exact ⟨c', (allocation.busy c').mpr (.inr rfl), allocation.address⟩
  have gone : ¬guard₁.holds c.address := by
    intro holds
    rcases logAllocation_holds logs c.address holds with old | same
    · exact absent old
    · obtain rfl := tiles_inj cells_forward ok.layout.tiled busy.1 ideal.member same
      exact busy.2 ideal.free
  have inUse (length : Nat) : ∀ x, guard₁.holds x → InUse (t.memcpy (i.address + 32) (c.address + 32) length) x := by
    intro x holds
    obtain ⟨e, busy, rfl⟩ := held x holds
    exact (inUse_of_busy allocation.sound.layout busy).overwritten rfl
  have logless := logFreeing_absent gone
  obtain ⟨freed, frees, same⟩ := Option.map_eq_some_iff.mp runs
  simp only [logRellocation_absent gone] at frees
  rw [expFreeHeapBlock_logs busyHead (by rwa [logless]) (by rw [logless]; exact inUse _), logless] at frees
  obtain ⟨u, plain, rfl⟩ := Option.map_eq_some_iff.mp frees
  cases same
  refine ⟨?_, rfl, logs⟩
  rw [allocates, Option.bind_some, here, Option.bind_some]
  exact congrArg (Option.map _) plain

theorem exReallocHeap_logs (busyHead : ∀ s, headType s ≠ heapBlockFree) (ok : Sound padded s cells) (busy : Busy cells c)
    (within : guard.Within cells) (small : newSize < 0xFFFFFFF1)
    (stationary : guard.holds c.address →
      alignedUnits newSize ≤ c.block.size ∨ expFindIdealBlock s newSize = some none)
    (runs : exReallocHeap headType s guard (c.address + 32) newSize = some (r, s', guard')) :
    Ex.exReallocHeap headType s (c.address + 32) newSize = some (r, s') ∧
      Logged cells guard guard' r (some (c.address + 32)) ∧
      (guard.holds c.address → r = none ∨ r = some (c.address + 32)) := by
  have here := (ok.layout.cell c busy.1).here
  unfold exReallocHeap at runs
  unfold Ex.exReallocHeap
  simp only [Nat.add_sub_cancel, here, Option.bind_some] at runs ⊢
  split at runs
  · contradiction
  · rename_i type
    rw [if_neg type]
    split at runs
    · contradiction
    · rename_i valid
      rw [if_neg valid]
      split at runs
      · rename_i fits
        obtain ⟨t, resizes, same⟩ := Option.map_eq_some_iff.mp runs
        cases same
        rw [if_pos fits, resizes]
        exact ⟨rfl, .inl ⟨rfl, .inr rfl⟩, fun _ => .inr rfl⟩
      · rename_i fits
        obtain ⟨grows, grown, runs⟩ := Option.bind_eq_some_iff.mp runs
        rw [if_neg fits, grown, Option.bind_some]
        split at runs
        · contradiction
        · rename_i still
          rw [if_neg still]
          rcases expFindIdealBlock_spec ok.layout newSize with ⟨search, _⟩ | ⟨i, search, ideal⟩
          · rw [search] at runs ⊢
            cases runs
            exact ⟨rfl, .inl ⟨rfl, .inl rfl⟩, fun _ => .inl rfl⟩
          · have absent : ¬guard.holds c.address := by
              intro holds
              rcases stationary holds with more | nothing
              · exact fits more
              · rw [search] at nothing
                cases nothing
            rw [search, Option.bind_some] at runs ⊢
            obtain ⟨plain, place, logs⟩ := move_logs busyHead ok busy within absent ideal small runs
            exact ⟨plain, .inr ⟨i, ideal.member, ideal.free, place, logs⟩, fun holds => absurd holds absent⟩

end realloc

section mirror

variable {s : GuardState} {guard' : Guard} {a i : Nat}

/-- The table has the region's blocks, each once. -/
structure Mirrors (guard : Guard) (region : List Nat) : Prop where
  nodup : region.Nodup
  perm : ∀ t ∈ guard, t.blocks.Perm region
  idle : guard = none → region = []

theorem Mirrors.holds {guard : Guard} {region : List Nat} (mirrors : Mirrors guard region) :
    guard.holds a ↔ a ∈ region := by
  cases guard with
  | none =>
    rw [mirrors.idle rfl]
    apply iff_of_false _ List.not_mem_nil
    rintro ⟨t, impossible, _⟩
    cases impossible
  | some t =>
    rw [← (mirrors.perm t rfl).mem_iff]
    constructor
    · rintro ⟨u, here, member⟩
      obtain rfl := Option.some.inj here
      exact member
    · exact fun member => ⟨t, rfl, member⟩

theorem Mirrors.allocate (mirrors : Mirrors s.guard s.region) (fresh : a ∉ s.region)
    (logs : s.guard.logAllocation a = some guard') : Mirrors guard' (s.noted (a :: ·)) := by
  unfold GuardState.noted
  cases guarded : s.guard with
  | none =>
    rw [guarded] at logs mirrors
    cases logs
    exact mirrors
  | some t =>
    rw [guarded] at logs
    obtain ⟨t', added, rfl⟩ := Option.map_eq_some_iff.mp logs
    refine ⟨List.nodup_cons.mpr ⟨fresh, mirrors.nodup⟩, fun u here => ?_, nofun⟩
    obtain rfl := Option.some.inj here
    exact (expLogAllocation_blocks added).1.trans ((mirrors.perm t guarded).cons a)

theorem Mirrors.free (mirrors : Mirrors s.guard s.region) (a : Nat) :
    Mirrors (s.guard.logFreeing a) (s.noted (·.erase a)) := by
  unfold GuardState.noted
  cases guarded : s.guard with
  | none =>
    rw [guarded] at mirrors
    exact mirrors
  | some t =>
    refine ⟨mirrors.nodup.erase a, fun u here => ?_, nofun⟩
    obtain rfl := Option.some.inj here
    rw [expLogFreeing_blocks]
    exact (mirrors.perm t guarded).erase a

theorem noted_move (absent : a ∉ s.region) : (s.noted fun region => i :: region.erase a) = s.noted (i :: ·) := by
  unfold GuardState.noted
  simp only [List.erase_of_not_mem absent]

/-- Where the guard's two blocks are. -/
def Guard.place (guard : Guard) : Option (Nat × Nat) := guard.map fun t => (t.guardTable, t.table)

theorem logAllocation_place {guard : Guard} (logs : guard.logAllocation a = some guard') : guard'.place = guard.place := by
  cases guard with
  | none =>
    cases logs
    rfl
  | some t =>
    obtain ⟨t', added, rfl⟩ := Option.map_eq_some_iff.mp logs
    obtain ⟨_, here, there⟩ := expLogAllocation_blocks added
    exact congrArg some (Prod.ext here there)

theorem logFreeing_place (guard : Guard) (a : Nat) : (guard.logFreeing a).place = guard.place := by
  cases guard <;> rfl

end mirror

section watched

variable {headType : Heap → BitVec 8} {s t : GuardState} {cells cells' : List Cell} {c d : Cell} {call : HeapCall}
  {heap heap' : Heap}

/-- A block in use with its padding. -/
structure Reserved (heap : Heap) (cells : List Cell) (d : Cell) (ptr : Nat) : Prop where
  busy : Busy cells d
  place : ptr = d.address + 32
  kind : d.block.blockType = heapBlockAllocated
  ok : CellOk True heap d

theorem Reserved.after {padded : Prop} {ptr : Nat} (reserved : Reserved heap cells d ptr)
    (remains : Remains heap heap' cells' d) (layout : Layout padded heap' cells') : Reserved heap' cells' d ptr :=
  ⟨remains.1, reserved.place, reserved.kind,
    reserved.ok.frame_bytes (layout.cell d remains.1.1) remains.2⟩

/-- The guard's two blocks are in use. -/
def Placed (heap : Heap) (cells : List Cell) (place : Nat × Nat) : Prop :=
  ∃ d e, Reserved heap cells d place.1 ∧ Reserved heap cells e place.2 ∧ d ≠ e

/-- What every run keeps: the table has the region's blocks, clients hold these, and the table itself is in use. -/
structure Watched (s : GuardState) (cells : List Cell) : Prop where
  kept : Kept false s.clients cells
  mirrors : Mirrors s.guard s.region
  held : ∀ a ∈ s.region, ∃ g, s.clients.held (a + 32) = some g
  placed : ∀ place ∈ s.guard.place, Placed s.clients.heap cells place

/-- The region's blocks are in use, and so the table's are. -/
theorem Watched.within (watched : Watched s cells) : s.guard.Within cells := by
  intro a holds
  obtain ⟨g, held⟩ := watched.held a (watched.mirrors.holds.mp holds)
  obtain ⟨d, member, busy, place, _⟩ := watched.kept.grant held
  exact ⟨d, ⟨member, busy⟩, (Nat.add_right_cancel place).symm⟩

theorem Watched.fresh (watched : Watched s cells) (member : c ∈ cells) (free : c.isFree) : c.address ∉ s.region := by
  intro inside
  obtain ⟨d, busy, same⟩ := watched.within c.address (watched.mirrors.holds.mpr inside)
  obtain rfl := tiles_inj cells_forward watched.kept.sound.layout.tiled busy.1 member same
  exact busy.2 free

/-- A call that returns has not grown a block into the next one. -/
theorem careful_of_small {clients : HeapState} (small : Small s.clients.heap call)
    (step : s.clients.call headType call = some clients) : Careful headType false s.clients call := by
  cases call with
  | allocate => exact small
  | free | lock | unlock | write => trivial
  | realloc ptr newSize =>
    obtain ⟨r, runs, _⟩ := Option.map_eq_some_iff.mp step
    refine ⟨small, fun b here => ⟨fun larger grown => ?_, nofun⟩⟩
    simp only [Ex.exReallocHeap, here, Option.bind_some, if_neg (BitVec.not_le.mpr larger), grown] at runs
    split at runs
    · contradiction
    · split at runs
      · contradiction
      · contradiction

theorem call_held {clients : HeapState} {h : HeapState} (step : h.call headType call = some clients) {p : Nat} {g : Grant}
    (holds : h.held p = some g) (freed : call ≠ .free p) (moved : ∀ newSize, call ≠ .realloc p newSize) :
    ∃ g', clients.held p = some g' := by
  have set : ∀ {held : Nat → Option Grant} {q : Nat} {g' : Grant}, held p = some g →
      ∃ g'', Function.update held q (some g') p = some g'' := by
    intro held q g' holds
    by_cases same : p = q
    · subst same
      exact ⟨g', Function.update_self ..⟩
    · exact ⟨g, (Function.update_of_ne same ..).trans holds⟩
  cases call with
  | allocate size =>
    obtain ⟨⟨r, heap⟩, _, rfl⟩ := Option.map_eq_some_iff.mp step
    cases r with
    | none => exact ⟨g, holds⟩
    | some new => exact set holds
  | realloc ptr newSize =>
    have other : p ≠ ptr := fun same => moved newSize (same ▸ rfl)
    obtain ⟨⟨r, heap⟩, _, rfl⟩ := Option.map_eq_some_iff.mp step
    cases r with
    | none => exact ⟨g, holds⟩
    | some new => exact set ((Function.update_of_ne other ..).trans holds)
  | free ptr =>
    have other : p ≠ ptr := fun same => freed (same ▸ rfl)
    obtain ⟨heap, _, rfl⟩ := Option.map_eq_some_iff.mp step
    exact ⟨g, (Function.update_of_ne other ..).trans holds⟩
  | lock ptr | unlock ptr =>
    obtain ⟨heap, _, rfl⟩ := Option.map_eq_some_iff.mp step
    by_cases same : p = ptr
    · subst same
      exact ⟨_, (Function.update_self ..).trans (congrArg (Option.map _) holds)⟩
    · exact ⟨g, (Function.update_of_ne same ..).trans holds⟩
  | write ptr i value =>
    obtain rfl := Option.some.inj step
    exact ⟨g, holds⟩

theorem Watched.next (busyHead : ∀ s, headType s ≠ heapBlockFree) (watched : Watched s cells) (owned : Owned s call)
    (small : Small s.clients.heap call) (step : s.clients.call headType call = some t.clients)
    (place : t.guard.place = s.guard.place) (mirrors : Mirrors t.guard t.region)
    (held : ∀ a ∈ t.region, ∃ g, t.clients.held (a + 32) = some g) : ∃ cells', Watched t cells' := by
  obtain ⟨live, foreign⟩ := owned
  have careful := careful_of_small small step
  obtain ⟨cells', kept⟩ := step_kept busyHead watched.kept live careful step
  refine ⟨cells', kept, mirrors, held, fun pair here => ?_⟩
  rw [place] at here
  obtain ⟨d, e, first, second, ne⟩ := watched.placed pair here
  obtain ⟨table, guarded, rfl⟩ := Option.map_eq_some_iff.mp here
  obtain ⟨notFirst, notSecond⟩ := foreign table guarded
  have layout := kept.sound.layout
  have one := call_remains busyHead watched.kept kept live careful step first.busy (first.place ▸ notFirst)
  have two := call_remains busyHead watched.kept kept live careful step second.busy (second.place ▸ notSecond)
  exact ⟨d, e, first.after one layout, second.after two layout, ne⟩

theorem mem_noted_cons {a x : Nat} (member : x ∈ s.noted (a :: ·)) : x = a ∨ x ∈ s.region := by
  unfold GuardState.noted at member
  split at member
  · exact List.mem_cons.mp member
  · exact .inr member

theorem mem_noted_erase {a x : Nat} (mirrors : Mirrors s.guard s.region) (member : x ∈ s.noted (·.erase a)) :
    x ∈ s.region ∧ x ≠ a := by
  unfold GuardState.noted at member
  split at member
  · exact (mirrors.nodup.mem_erase_iff.mp member).symm
  · rename_i idle
    rw [mirrors.idle (Option.not_isSome_iff_eq_none.mp idle)] at member
    contradiction

theorem Watched.block (watched : Watched s cells) {ptr : Nat} (live : ∃ g, s.clients.held ptr = some g ∧ g.locked = false) :
    ∃ c, Busy cells c ∧ ptr = c.address + 32 ∧ c.block.blockType = heapBlockAllocated := by
  obtain ⟨g, holds, unlocked⟩ := live
  obtain ⟨c, member, busy, place, _, kind, _⟩ := watched.kept.grant holds
  rw [unlocked] at kind
  exact ⟨c, ⟨member, busy⟩, place, kind⟩

theorem allocate_watched (busyHead : ∀ s, headType s ≠ heapBlockFree) (watched : Watched s cells) {size : BitVec 32}
    (owned : Owned s (.allocate size)) (small : Small s.clients.heap (.allocate size))
    (step : s.call headType (.allocate size) = some t) : ∃ cells', Watched t cells' := by
  obtain ⟨⟨r, heap, guard'⟩, runs, rfl⟩ := Option.map_eq_some_iff.mp step
  obtain ⟨plain, logged⟩ := exAllocateHeap_logs watched.kept.sound.layout runs
  rcases logged with ⟨rfl, nothing⟩ | ⟨i, member, free, rfl, logs⟩
  · obtain rfl : r = none := nothing.elim id id
    have called : s.clients.call headType (.allocate size) = some ⟨heap, s.clients.held⟩ := congrArg (Option.map _) plain
    exact watched.next busyHead owned small called rfl watched.mirrors watched.held
  · have fresh := watched.fresh member free
    have called : s.clients.call headType (.allocate size) = some
        ⟨heap, Function.update s.clients.held (i.address + 32) (some ⟨size, false⟩)⟩ := congrArg (Option.map _) plain
    refine watched.next busyHead owned small called (logAllocation_place logs) (watched.mirrors.allocate fresh logs) ?_
    intro x inside
    rcases mem_noted_cons inside with rfl | old
    · exact ⟨_, Function.update_self ..⟩
    · obtain ⟨g, holds⟩ := watched.held x old
      exact call_held called holds nofun fun _ => nofun

theorem free_watched (busyHead : ∀ s, headType s ≠ heapBlockFree) (watched : Watched s cells) {ptr : Nat}
    (owned : Owned s (.free ptr)) (step : s.call headType (.free ptr) = some t) : ∃ cells', Watched t cells' := by
  obtain ⟨c, busy, rfl, _⟩ := watched.block owned.1
  obtain ⟨⟨heap, guard'⟩, runs, rfl⟩ := Option.map_eq_some_iff.mp step
  have freed := watched.mirrors.free c.address
  have others : ∀ x, (s.guard.logFreeing c.address).holds x → x ∈ s.region ∧ x ≠ c.address :=
    fun x holds => mem_noted_erase watched.mirrors (freed.holds.mp holds)
  have gone : ¬(s.guard.logFreeing c.address).holds c.address := fun holds => (others _ holds).2 rfl
  have inUse : ∀ x, (s.guard.logFreeing c.address).holds x → InUse s.clients.heap x := by
    intro x holds
    obtain ⟨d, inUse, rfl⟩ := watched.within x (watched.mirrors.holds.mpr (others x holds).1)
    exact inUse_of_busy watched.kept.sound.layout inUse
  have logs : exFreeHeap headType s.clients.heap s.guard (c.address + 32) = _ := exFreeHeap_logs busyHead gone inUse
  rw [runs] at logs
  obtain ⟨heap', plain, same⟩ := Option.map_eq_some_iff.mp logs.symm
  cases same
  have called : s.clients.call headType (.free (c.address + 32)) = some
      ⟨heap, Function.update s.clients.held (c.address + 32) none⟩ := congrArg (Option.map _) plain
  refine watched.next busyHead owned trivial called (logFreeing_place s.guard c.address) freed fun x inside => ?_
  obtain ⟨old, other⟩ := mem_noted_erase watched.mirrors inside
  obtain ⟨g, holds⟩ := watched.held x old
  refine call_held called holds (fun same => ?_) fun _ => nofun
  injection same with same
  omega

theorem realloc_watched (busyHead : ∀ s, headType s ≠ heapBlockFree) (watched : Watched s cells) {ptr : Nat}
    {newSize : BitVec 32} (owned : Owned s (.realloc ptr newSize)) (stationary : Stationary s (.call (.realloc ptr newSize)))
    (step : s.call headType (.realloc ptr newSize) = some t) : ∃ cells', Watched t cells' := by
  obtain ⟨c, busy, rfl, _⟩ := watched.block owned.1
  obtain ⟨small, stationary⟩ := stationary
  simp only [Nat.add_sub_cancel] at stationary
  obtain ⟨⟨r, heap, guard'⟩, runs, rfl⟩ := Option.map_eq_some_iff.mp step
  have still : s.guard.holds c.address →
      alignedUnits newSize ≤ c.block.size ∨ expFindIdealBlock s.clients.heap newSize = some none :=
    fun holds => stationary (watched.mirrors.holds.mp holds) c.block (watched.kept.sound.layout.cell c busy.1).here
  obtain ⟨plain, logged, unmoved⟩ := exReallocHeap_logs busyHead watched.kept.sound busy watched.within small still runs
  rcases logged with ⟨rfl, rfl | rfl⟩ | ⟨i, member, free, rfl, logs⟩
  · have called : s.clients.call headType (.realloc (c.address + 32) newSize) = some ⟨heap, s.clients.held⟩ :=
      congrArg (Option.map _) plain
    exact watched.next busyHead owned small called rfl watched.mirrors watched.held
  · have called : s.clients.call headType (.realloc (c.address + 32) newSize) = some ⟨heap, Function.update
        (Function.update s.clients.held (c.address + 32) none) (c.address + 32) (some ⟨newSize, false⟩)⟩ :=
      congrArg (Option.map _) plain
    have region : (if c.address + 32 = c.address + 32 then s.region else
        s.noted fun region => (c.address + 32 - 32) :: region.erase (c.address + 32 - 32)) = s.region := if_pos rfl
    have mirrors := watched.mirrors
    rw [← region] at mirrors
    refine watched.next busyHead owned small called rfl mirrors fun x inside => ?_
    change x ∈ ite _ _ _ at inside
    rw [region] at inside
    obtain ⟨g, holds⟩ := watched.held x inside
    by_cases same : x = c.address
    · subst same
      exact ⟨_, Function.update_self ..⟩
    · refine call_held called holds nofun fun _ equal => ?_
      injection equal with equal
      omega
  · have called : s.clients.call headType (.realloc (c.address + 32) newSize) = some ⟨heap, Function.update
        (Function.update s.clients.held (c.address + 32) none) (i.address + 32) (some ⟨newSize, false⟩)⟩ :=
      congrArg (Option.map _) plain
    have apart : i.address ≠ c.address := by
      intro same
      obtain rfl := tiles_inj cells_forward watched.kept.sound.layout.tiled member busy.1 same
      exact busy.2 free
    have elsewhere : i.address + 32 ≠ c.address + 32 := by omega
    have absent : c.address ∉ s.region := by
      intro inside
      rcases unmoved (watched.mirrors.holds.mpr inside) with none | same
      · cases none
      · exact elsewhere (Option.some.inj same)
    have allocated := watched.mirrors.allocate (watched.fresh member free) logs
    have region : (if i.address + 32 = c.address + 32 then s.region else
        s.noted fun region => (i.address + 32 - 32) :: region.erase (c.address + 32 - 32)) = s.noted (i.address :: ·) :=
      (if_neg elsewhere).trans (noted_move absent)
    rw [← region] at allocated
    refine watched.next busyHead owned small called (logAllocation_place logs) allocated fun x inside => ?_
    change x ∈ ite _ _ _ at inside
    rw [region] at inside
    rcases mem_noted_cons inside with rfl | old
    · exact ⟨_, Function.update_self ..⟩
    · obtain ⟨g, holds⟩ := watched.held x old
      refine call_held called holds nofun fun _ equal => ?_
      injection equal with equal
      obtain rfl : c.address = x := by omega
      exact absent old

theorem unlogged_watched (busyHead : ∀ s, headType s ≠ heapBlockFree) (watched : Watched s cells) {clients : HeapState}
    (owned : Owned s call) (small : Small s.clients.heap call) (called : s.clients.call headType call = some clients)
    (keeps : ∀ a ∈ s.region, call ≠ .free (a + 32) ∧ ∀ newSize, call ≠ .realloc (a + 32) newSize) :
    ∃ cells', Watched { s with clients := clients } cells' := by
  refine watched.next busyHead owned small called rfl watched.mirrors fun a inside => ?_
  obtain ⟨g, holds⟩ := watched.held a inside
  obtain ⟨notFreed, notMoved⟩ := keeps a inside
  exact call_held called holds notFreed notMoved

theorem call_watched (busyHead : ∀ s, headType s ≠ heapBlockFree) (watched : Watched s cells) (owned : Owned s call)
    (stationary : Stationary s (.call call)) (step : s.call headType call = some t) : ∃ cells', Watched t cells' := by
  cases call with
  | allocate size => exact allocate_watched busyHead watched owned stationary.1 step
  | realloc ptr newSize => exact realloc_watched busyHead watched owned stationary step
  | free ptr => exact free_watched busyHead watched owned step
  | lock | unlock =>
    obtain ⟨clients, called, rfl⟩ := Option.map_eq_some_iff.mp step
    exact unlogged_watched busyHead watched owned trivial called fun _ _ => ⟨nofun, fun _ => nofun⟩
  | write ptr i value =>
    obtain rfl := Option.some.inj step
    have called : s.clients.call headType (.write ptr i value) =
        some { s.clients with heap := s.clients.heap.memset (ptr + i) value 1 } := rfl
    exact unlogged_watched busyHead watched owned trivial called fun _ _ => ⟨nofun, fun _ => nofun⟩

theorem others_watched (busyHead : ∀ s, headType s ≠ heapBlockFree) (watched : Watched s cells)
    (orderly : Orderly s (.others call)) (small : Small s.clients.heap call)
    (step : s.step headType (.others call) = some t) : ∃ cells', Watched t cells' := by
  obtain ⟨owned, foreign⟩ := orderly
  obtain ⟨clients, called, rfl⟩ := Option.map_eq_some_iff.mp step
  refine unlogged_watched busyHead watched owned small called fun a inside => ⟨?_, fun newSize => ?_⟩
  · rintro rfl
    exact foreign (a + 32) rfl inside
  · rintro rfl
    exact foreign (a + 32) rfl inside

end watched

section region

variable {headType : Heap → BitVec 8} {s t : GuardState} {cells cells' : List Cell} {heap : Heap} {table : EheapGuardTable}

/-- A new block has its padding, and is where no block in use was. -/
theorem allocate_reserved {padded padded' : Prop} {s : Heap} {size : BitVec 32} {ptr : Nat} (ok : Sound padded s cells)
    (small : size < 0xFFFFFFF1) (runs : Ex.exAllocateHeap s size = some (some ptr, heap))
    (after : Layout padded' heap cells') :
    ∃ e, Reserved heap cells' e ptr ∧ ∀ d, Busy cells d → Remains s heap cells' d ∧ d ≠ e := by
  rcases exAllocateHeap_spec ok small with ⟨nothing, _⟩ | ⟨c, heap', cells₁, e, found, ideal, allocation⟩
  · rw [runs] at nothing
    cases nothing
  · rw [runs] at found
    cases found
    obtain rfl := allocation.sound.layout.unique after
    have new := (allocation.busy e).mpr (.inr rfl)
    have plain : Ex.expAllocateHeapInBlock s c.address size = some (c.address + 32, heap) := by
      obtain ⟨found, _, runs⟩ := Option.bind_eq_some_iff.mp runs
      cases found with
      | none => cases runs
      | some i =>
        obtain ⟨⟨p, t⟩, allocates, same⟩ := Option.map_eq_some_iff.mp runs
        obtain ⟨there, rfl⟩ := Prod.mk.inj same
        have place := allocateInBlock_place allocates
        obtain rfl := Nat.add_right_cancel (place.symm.trans (Option.some.inj there))
        rwa [place] at allocates
    refine ⟨e, ⟨new, by rw [allocation.address], allocation.kind, ?_⟩, fun d busy => ⟨?_, ?_⟩⟩
    · exact allocateInBlock_padded plain allocation.address (after.cell e new.1) allocation.kind
    · exact allocation.remains ok.layout ideal.member ideal.free busy
    · rintro rfl
      obtain rfl := tiles_inj cells_forward ok.layout.tiled busy.1 ideal.member allocation.address
      exact busy.2 ideal.free

theorem enter_watched (busyHead : ∀ s, headType s ≠ heapBlockFree) (watched : Watched s cells)
    (step : s.step headType .enter = some t) : ∃ cells', Watched t cells' := by
  obtain ⟨⟨heap, table⟩, runs, rfl⟩ := Option.map_eq_some_iff.mp step
  unfold exEnterHeapGuardedRegion at runs
  split at runs
  · contradiction
  · obtain ⟨⟨r₁, h₁⟩, first, runs⟩ := Option.bind_eq_some_iff.mp runs
    obtain ⟨p, rfl, runs⟩ := Option.bind_eq_some_iff.mp runs
    obtain ⟨⟨r₂, h₂⟩, second, runs⟩ := Option.bind_eq_some_iff.mp runs
    obtain ⟨q, rfl, same⟩ := Option.map_eq_some_iff.mp runs
    cases same
    let clients : HeapState := ⟨h₁, Function.update s.clients.held p (some ⟨8, false⟩)⟩
    let size : BitVec 32 := 4 * BitVec.ofNat 32 exGuardTableInitialSize
    have called₁ : s.clients.call headType (.allocate 8) = some clients := congrArg (Option.map _) first
    have careful₁ : Careful headType false s.clients (.allocate 8) := .inl (by decide)
    have live₁ : Live false s.clients (.allocate 8) := trivial
    obtain ⟨cells₁, kept₁⟩ := step_kept busyHead watched.kept live₁ careful₁ called₁
    have called₂ : clients.call headType (.allocate size) =
        some ⟨h₂, Function.update clients.held q (some ⟨size, false⟩)⟩ := congrArg (Option.map _) second
    have careful₂ : Careful headType false clients (.allocate size) := .inl (by decide)
    have live₂ : Live false clients (.allocate size) := trivial
    obtain ⟨cells₂, kept₂⟩ := step_kept busyHead kept₁ live₂ careful₂ called₂
    obtain ⟨d, here, _⟩ := allocate_reserved watched.kept.sound (by decide) first kept₁.sound.layout
    obtain ⟨e, there, apart⟩ := allocate_reserved kept₁.sound (by decide) second kept₂.sound.layout
    obtain ⟨remains, ne⟩ := apart d here.busy
    refine ⟨cells₂, kept₂, ⟨List.nodup_nil, fun u same => ?_, nofun⟩, nofun, fun place same => ?_⟩
    · obtain rfl := Option.some.inj same
      exact .of_eq (List.filterMap_replicate_of_none rfl)
    · obtain rfl := Option.some.inj same
      exact ⟨d, e, here.after remains kept₂.sound.layout, there, ne⟩

theorem any_entries (t : EheapGuardTable) : t.entries.any Option.isSome = true ↔ t.blocks ≠ [] := by
  rw [List.any_eq_true]
  constructor
  · rintro ⟨e, member, isSome⟩ none
    obtain ⟨a, rfl⟩ := Option.isSome_iff_exists.mp isSome
    have inside := mem_blocks.mpr member
    rw [none] at inside
    contradiction
  · intro some
    obtain ⟨a, member⟩ := List.exists_mem_of_ne_nil _ some
    exact ⟨_, mem_blocks.mp member, rfl⟩

theorem Watched.left (busyHead : ∀ s, headType s ≠ heapBlockFree) (watched : Watched s cells)
    (guarded : s.guard = some table) (nothing : s.region = []) :
    ∃ heap cells', exLeaveHeapGuardedRegion headType s.clients.heap s.guard = some heap ∧ Kept false
      ⟨heap, Function.update (Function.update s.clients.held table.table none) table.guardTable none⟩ cells' := by
  have perm := watched.mirrors.perm table guarded
  rw [nothing] at perm
  have empty : ¬table.entries.any Option.isSome = true := fun some => (any_entries table).mp some perm.eq_nil
  obtain ⟨d, e, first, second, ne⟩ := watched.placed (table.guardTable, table.table) (congrArg Guard.place guarded)
  obtain ⟨h₁, cells₁, frees₁, freeing₁⟩ :=
    exFreeHeap_spec busyHead watched.kept.sound second.busy.1 second.kind (second.ok.valid (.inl trivial))
  have kept₁ := watched.kept.release freeing₁.sound second.busy.1 freeing₁.busy
  have still := first.after (freeing₁.remains first.busy ne) freeing₁.sound.layout
  obtain ⟨h₂, cells₂, frees₂, freeing₂⟩ :=
    exFreeHeap_spec busyHead freeing₁.sound still.busy.1 still.kind (still.ok.valid (.inl trivial))
  have kept₂ := kept₁.release freeing₂.sound still.busy.1 freeing₂.busy
  rw [← second.place, ← first.place] at kept₂
  rw [← second.place] at frees₁
  rw [← first.place] at frees₂
  refine ⟨h₂, cells₂, ?_, kept₂⟩
  unfold exLeaveHeapGuardedRegion
  rw [guarded, Option.bind_some, if_neg empty, frees₁]
  exact frees₂

theorem Watched.leave_iff (busyHead : ∀ s, headType s ≠ heapBlockFree) (watched : Watched s cells)
    (guarded : s.guard = some table) :
    exLeaveHeapGuardedRegion headType s.clients.heap s.guard = none ↔ s.region ≠ [] := by
  constructor
  · intro stops nothing
    obtain ⟨heap, cells', returns, _⟩ := watched.left busyHead guarded nothing
    rw [stops] at returns
    contradiction
  · intro some
    have listed : table.blocks ≠ [] := by
      intro none
      have perm := watched.mirrors.perm table guarded
      rw [none] at perm
      exact some perm.nil_eq.symm
    unfold exLeaveHeapGuardedRegion
    rw [guarded, Option.bind_some, if_pos ((any_entries table).mpr listed)]

theorem leave_watched (busyHead : ∀ s, headType s ≠ heapBlockFree) (watched : Watched s cells)
    (step : s.step headType .leave = some t) : ∃ cells', Watched t cells' := by
  obtain ⟨table, guarded, step⟩ := Option.bind_eq_some_iff.mp step
  obtain ⟨heap, returns, rfl⟩ := Option.map_eq_some_iff.mp step
  have nothing : s.region = [] := by
    by_contra some
    rw [(watched.leave_iff busyHead guarded).mpr some] at returns
    contradiction
  obtain ⟨heap', cells', left, kept⟩ := watched.left busyHead guarded nothing
  rw [returns] at left
  cases left
  exact ⟨cells', kept, ⟨List.nodup_nil, nofun, fun _ => rfl⟩, nofun, nofun⟩

theorem step_watched (busyHead : ∀ s, headType s ≠ heapBlockFree) {call : GuardCall} (watched : Watched s cells)
    (step : StationaryStep headType s call t) : ∃ cells', Watched t cells' := by
  obtain ⟨⟨orderly, stationary⟩, step⟩ := step
  cases call with
  | enter => exact enter_watched busyHead watched step
  | leave => exact leave_watched busyHead watched step
  | call call => exact call_watched busyHead watched orderly stationary step
  | others call => exact others_watched busyHead watched orderly stationary step

theorem start_watched (memory : Buffer) (links : Links Nat) (expHeapCookie : BitVec 16) :
    Watched (GuardState.start memory links expHeapCookie) [initialCell memory links expHeapCookie] where
  kept := start_kept memory links expHeapCookie false
  mirrors := ⟨List.nodup_nil, nofun, fun _ => rfl⟩
  held := nofun
  placed := nofun

end region

/-- Where no block of the region moves, a guarded thread's leave call stops exactly if it still has a block of its
region. -/
theorem heapGuard_exact {headType : Heap → BitVec 8} {s : GuardState} {calls : List GuardCall}
    (busyHead : ∀ s, headType s ≠ heapBlockFree) (memory : Buffer) (links : Links Nat) (expHeapCookie : BitVec 16)
    (run : Run (StationaryStep headType) (GuardState.start memory links expHeapCookie) calls s)
    (guarded : s.guard.isSome) :
    exLeaveHeapGuardedRegion headType s.clients.heap s.guard = none ↔ s.region ≠ [] := by
  have watched : ∃ cells, Watched s cells := by
    refine run.invariant (I := fun s => ∃ cells, Watched s cells) ?_ ⟨_, start_watched memory links expHeapCookie⟩
    rintro s call t ⟨cells, watched⟩ step
    exact step_watched busyHead watched step
  obtain ⟨cells, watched⟩ := watched
  obtain ⟨table, guarded⟩ := Option.isSome_iff_exists.mp guarded
  exact watched.leave_iff busyHead guarded

/-- The heap over zeroed memory, and a thread that is not guarded. -/
def freshGuard : GuardState := .start (fun _ => 0) ⟨fun _ => 0, fun _ => 0⟩ 0x1234

/-- A block from before the region moves into it, and another thread frees one of its own. -/
def movedIn : List GuardCall :=
  [.call (.allocate 320), .others (.allocate 16), .enter, .call (.realloc firstData 400), .others (.free secondData)]

theorem movedIn_exact : ∃ s, Run (StationaryStep zeroHead) freshGuard movedIn s ∧ s.region.length = 1 ∧
    (exLeaveHeapGuardedRegion zeroHead s.clients.heap s.guard = none ↔ s.region ≠ []) := by
  have returns : (exec (guarded (fun s call => Orderly s call ∧ Stationary s call) fun s call => s.step zeroHead call)
      freshGuard movedIn).map (fun s => decide (s.guard.isSome ∧ s.region.length = 1)) = some true := by
    decide +kernel
  obtain ⟨s, runs, facts⟩ := Option.map_eq_some_iff.mp returns
  obtain ⟨isSome, one⟩ := of_decide_eq_true facts
  have run := guarded_run runs
  exact ⟨s, run, one, heapGuard_exact zeroHead_busy (fun _ => 0) ⟨fun _ => 0, fun _ => 0⟩ 0x1234 run isSome⟩

/-- A block of the region lies between the table's header and a block from before the region, moves behind the table
and is freed there. -/
def loggedTwice : List GuardCall :=
  [.call (.allocate 320), .call (.allocate 16), .call (.free firstData), .enter, .call (.allocate 272),
    .call (.realloc (expHeapArea + 80) 400), .call (.free (expHeapArea + 976))]

/-- Nothing of the region is left, and the table has the block that moved. -/
theorem loggedTwice_stops : ∃ s t, Run (GuardStep zeroHead) freshGuard loggedTwice s ∧ s.guard = some t ∧
    s.region = [] ∧ t.blocks = [expHeapArea + 944] ∧
    exLeaveHeapGuardedRegion zeroHead s.clients.heap s.guard = none := by
  have returns : (exec (guarded Orderly fun s call => s.step zeroHead call) freshGuard loggedTwice).map
      (fun s => decide (s.guard.map EheapGuardTable.blocks = some [expHeapArea + 944] ∧ s.region = [] ∧
        (exLeaveHeapGuardedRegion zeroHead s.clients.heap s.guard).isNone)) = some true := by
    decide +kernel
  obtain ⟨s, runs, facts⟩ := Option.map_eq_some_iff.mp returns
  obtain ⟨blocks, nothing, stops⟩ := of_decide_eq_true facts
  obtain ⟨t, guarded, blocks⟩ := Option.map_eq_some_iff.mp blocks
  exact ⟨s, t, guarded_run runs, guarded, nothing, blocks, Option.isNone_iff_eq_none.mp stops⟩

end Gr8os.Ex.HeapGuard
