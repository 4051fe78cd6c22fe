import Gr8os.Ldr.Relocation

/-! Which relocation tables the walk ends on without reading an entry outside them. -/
namespace Gr8os.Ldr

open LittleEndian Machine

section conditions

variable (m : Memory) (image optHeader : Address)

/-- How far an address is from the start of the table that the call finds. -/
def tableOffset (a : Address) : Nat := (a - imageFirstRelocation m image).toNat

def tableSize : Nat := (directorySize m optHeader .basereloc).toNat

/-- The entry that the next round reads lies in the table. -/
def ReadsInside : Walk → Prop
  | .entry m' relocation i => i < entryCount (sizeOfBlock m' relocation) →
      tableOffset m image (fixupEntry relocation i) + 2 ≤ tableSize m optHeader
  | _ => True

/-- The call returns, and every entry that it reads lies in the table. -/
def TerminatesInside : Prop :=
  (∃ n m' result, ldrRelocateImage m image optHeader n = .returned m' result) ∧
    ∀ k, ReadsInside m image optHeader (ldrRelocateImage m image optHeader k)

/-- A size with room for the header, whose entries end in the table and which does not wrap around. -/
def Fits (o size : Nat) : Prop :=
  8 ≤ size ∧ (size < 10 ∨ o + 2 * (size / 2) ≤ tableSize m optHeader) ∧ o + size < 2 ^ 32

/-- Where the walk is about to use a block's size, the size is one the table has room for. -/
def Sized : Walk → Prop
  | .block m' relocation => continues m' image optHeader relocation →
      (sizeOfBlock m' relocation).toNat ≤ 0x10000 ∧
        Fits m optHeader (tableOffset m image relocation) (sizeOfBlock m' relocation).toNat
  | .entry m' relocation _ => Fits m optHeader (tableOffset m image relocation) (sizeOfBlock m' relocation).toNat
  | _ => True

/-- No patch changes where the table is or the sizes of its blocks. -/
structure Undisturbed : Prop where
  first : ∀ k, imageFirstRelocation (ldrRelocateImage m image optHeader k).memory image = imageFirstRelocation m image
  size : ∀ k, directorySize (ldrRelocateImage m image optHeader k).memory optHeader .basereloc =
    directorySize m optHeader .basereloc
  blocks : ∀ k relocation, tableOffset m image relocation < tableSize m optHeader →
    sizeOfBlock (ldrRelocateImage m image optHeader k).memory relocation = sizeOfBlock m relocation

end conditions

section enough

variable {m : Memory} {image optHeader : Address} {delta : BitVec 32} {w : Walk}

theorem entryCount_lt (size : BitVec 32) : (entryCount size).toNat < 2 ^ 31 := by
  unfold entryCount
  have small := (size - 8).isLt
  rw [BitVec.toNat_udiv]
  exact Nat.div_lt_of_lt_mul (by simpa using small)

theorem tableOffset_entry {relocation : Address} {i : BitVec 32}
    (small : tableOffset m image relocation + 8 + 2 * i.toNat < 2 ^ 32) :
    tableOffset m image (fixupEntry relocation i) = tableOffset m image relocation + 8 + 2 * i.toNat := by
  unfold tableOffset at *
  unfold fixupEntry
  generalize imageFirstRelocation m image = first at *
  bv_omega

theorem tableOffset_next {relocation size : BitVec 32} (small : tableOffset m image relocation + size.toNat < 2 ^ 32) :
    tableOffset m image (relocation + size) = tableOffset m image relocation + size.toNat := by
  unfold tableOffset at *
  generalize imageFirstRelocation m image = first at *
  bv_omega

theorem Sized.readsInside (sized : Sized m image optHeader w) : ReadsInside m image optHeader w := by
  cases w with
  | entry m' relocation i =>
    intro less
    obtain ⟨least, room, bound⟩ := sized
    rw [BitVec.lt_def, entryCount_toNat least] at less
    have top : tableSize m optHeader < 2 ^ 32 := (directorySize m optHeader .basereloc).isLt
    rw [tableOffset_entry (by omega)]
    omega
  | _ => trivial

/-- The way that is left: blocks before entries, entries before their block's end. -/
def distance (m : Memory) (image : Address) : Walk → Nat
  | .block _ relocation => (2 ^ 32 - tableOffset m image relocation) * 2 ^ 33
  | .entry _ relocation i => (2 ^ 32 - tableOffset m image relocation) * 2 ^ 33 - 1 - i.toNat
  | _ => 0

def Walk.done : Walk → Prop
  | returned _ _ => True
  | _ => False

/-- A step of the walk from a place where the sizes fit. -/
theorem sized_step (sized : Sized m image optHeader w) (runs : w.stopped = false) :
    (relocateStep image optHeader delta w).stopped = false ∧
      (¬w.done → distance m image (relocateStep image optHeader delta w) < distance m image w) := by
  cases w with
  | block m' relocation =>
    have below : tableOffset m image relocation < 2 ^ 32 := BitVec.isLt _
    by_cases goes : continues m' image optHeader relocation
    · obtain ⟨limit, fits⟩ := sized goes
      have passes : ¬sizeOfBlock m' relocation > 0x10000 := by
        rw [gt_iff_lt, BitVec.lt_def]
        exact Nat.not_lt.mpr limit
      rw [relocateStep, if_pos goes, if_neg passes]
      refine ⟨rfl, fun _ => ?_⟩
      have zero : (0 : BitVec 32).toNat = 0 := rfl
      simp only [distance, zero]
      omega
    · rw [relocateStep, if_neg goes]
      refine ⟨rfl, fun _ => ?_⟩
      simp only [distance]
      omega
  | entry m' relocation i =>
    have below : tableOffset m image relocation < 2 ^ 32 := BitVec.isLt _
    by_cases less : i < entryCount (sizeOfBlock m' relocation)
    · have few := entryCount_lt (sizeOfBlock m' relocation)
      have next : (i + 1).toNat = i.toNat + 1 := by
        rw [BitVec.lt_def] at less
        bv_omega
      rw [relocateStep, if_pos less]
      refine ⟨rfl, fun _ => ?_⟩
      rw [BitVec.lt_def] at less
      simp only [distance, next]
      omega
    · obtain ⟨least, room, bound⟩ := sized
      have small := i.isLt
      rw [relocateStep, if_neg less]
      refine ⟨rfl, fun _ => ?_⟩
      simp only [distance, tableOffset_next bound]
      omega
  | returned m' result => exact ⟨rfl, fun unfinished => absurd trivial unfinished⟩
  | int3 m' => cases runs

theorem relocateStart_runs (m : Memory) (image : Address) : (relocateStart m image).stopped = false := by
  unfold relocateStart
  split <;> rfl

theorem terminatesInside_of_sized (sized : ∀ k, Sized m image optHeader (ldrRelocateImage m image optHeader k)) :
    TerminatesInside m image optHeader := by
  refine ⟨?_, fun k => (sized k).readsInside⟩
  have ended : ∃ n, (ldrRelocateImage m image optHeader n).done := by
    refine ends (I := fun w => w.stopped = false ∧
      ∀ k, Sized m image optHeader ((relocateStep image optHeader (relocationDelta m image optHeader))^[k] w))
      (distance m image) ?_ ?_ ⟨relocateStart_runs m image, sized⟩
    · rintro w ⟨runs, later⟩
      exact ⟨(sized_step (later 0) runs).1, fun k => later (k + 1)⟩
    · rintro w ⟨runs, later⟩ unfinished
      exact (sized_step (later 0) runs).2 unfinished
  obtain ⟨n, done⟩ := ended
  generalize reached : ldrRelocateImage m image optHeader n = w at done
  cases w with
  | returned m' result => exact ⟨n, m', result, reached⟩
  | _ => cases done

end enough

section needed

variable {m m' : Memory} {image optHeader relocation : Address} {k : Nat}

theorem run_succ (m : Memory) (image optHeader : Address) (k : Nat) : ldrRelocateImage m image optHeader (k + 1) =
    relocateStep image optHeader (relocationDelta m image optHeader) (ldrRelocateImage m image optHeader k) :=
  Function.iterate_succ_apply' _ _ _

theorem TerminatesInside.not_int3 (terminates : TerminatesInside m image optHeader) :
    ldrRelocateImage m image optHeader k ≠ .int3 m' := by
  obtain ⟨⟨n, last, result, returned⟩, _⟩ := terminates
  intro stopped
  have same := Reaches.unique ⟨k, stopped⟩ ⟨n, returned⟩ rfl rfl
  cases same

/-- Once a block is begun, its entries follow one after another. -/
theorem Undisturbed.entries (still : Undisturbed m image optHeader)
    (begun : ldrRelocateImage m image optHeader k = .entry m' relocation 0)
    (within : tableOffset m image relocation < tableSize m optHeader) {j : Nat}
    (less : j ≤ (entryCount (sizeOfBlock m relocation)).toNat) :
    ∃ m'', ldrRelocateImage m image optHeader (k + j) = .entry m'' relocation (BitVec.ofNat 32 j) := by
  induction j with
  | zero => exact ⟨m', begun⟩
  | succ j ih =>
    obtain ⟨before, here⟩ := ih (by omega)
    have size := still.blocks (k + j) relocation within
    rw [here] at size
    have few := entryCount_lt (sizeOfBlock m relocation)
    have goes : BitVec.ofNat 32 j < entryCount (sizeOfBlock before relocation) := by
      rw [show sizeOfBlock before relocation = sizeOfBlock m relocation from size, BitVec.lt_def, BitVec.toNat_ofNat,
        Nat.mod_eq_of_lt (by omega)]
      omega
    have next : BitVec.ofNat 32 j + 1 = BitVec.ofNat 32 (j + 1) := (BitVec.ofNat_add j 1).symm
    refine ⟨applyFixup image optHeader (relocationDelta m image optHeader) before relocation (BitVec.ofNat 32 j), ?_⟩
    rw [← Nat.add_assoc, run_succ, here, relocateStep, if_pos goes, next]

/-- A block that the walk begins has a size that the table has room for. -/
theorem TerminatesInside.block_fits (terminates : TerminatesInside m image optHeader) (still : Undisturbed m image optHeader)
    (small : tableSize m optHeader + 8 < 2 ^ 32) (here : ldrRelocateImage m image optHeader k = .block m' relocation)
    (goes : continues m' image optHeader relocation) :
    (sizeOfBlock m relocation).toNat ≤ 0x10000 ∧
      tableOffset m image relocation < tableSize m optHeader ∧
      Fits m optHeader (tableOffset m image relocation) (sizeOfBlock m relocation).toNat := by
  have first := still.first k
  have whole := still.size k
  rw [here] at first whole
  have within : tableOffset m image relocation < tableSize m optHeader := by
    have inside := goes
    unfold continues at inside
    rwa [show imageFirstRelocation m' image = imageFirstRelocation m image from first,
      show directorySize m' optHeader .basereloc = directorySize m optHeader .basereloc from whole, BitVec.lt_def] at inside
  have size := still.blocks k relocation within
  rw [here] at size
  have limit : ¬sizeOfBlock m' relocation > 0x10000 := by
    intro long
    have stopped : ldrRelocateImage m image optHeader (k + 1) = .int3 m' := by
      rw [run_succ, here, relocateStep, if_pos goes, if_pos long]
    exact terminates.not_int3 stopped
  have begun : ldrRelocateImage m image optHeader (k + 1) = .entry m' relocation 0 := by
    rw [run_succ, here, relocateStep, if_pos goes, if_neg limit]
  rw [show sizeOfBlock m' relocation = sizeOfBlock m relocation from size, gt_iff_lt, BitVec.lt_def, Nat.not_lt] at limit
  -- The first entry past the table's end is not read, so the count stops before it.
  have count : (entryCount (sizeOfBlock m relocation)).toNat ≤
      (tableSize m optHeader - tableOffset m image relocation - 8) / 2 := by
    by_contra more
    obtain ⟨m'', there⟩ := still.entries begun within (Nat.le_of_not_le more)
    have inside := terminates.2 (k + 1 + (tableSize m optHeader - tableOffset m image relocation - 8) / 2)
    have same := still.blocks (k + 1 + (tableSize m optHeader - tableOffset m image relocation - 8) / 2) relocation within
    rw [there] at inside same
    have index : (BitVec.ofNat 32 ((tableSize m optHeader - tableOffset m image relocation - 8) / 2)).toNat =
        (tableSize m optHeader - tableOffset m image relocation - 8) / 2 := by
      rw [BitVec.toNat_ofNat]
      omega
    have read := inside (by
      rw [show sizeOfBlock m'' relocation = sizeOfBlock m relocation from same, BitVec.lt_def, index]
      omega)
    rw [tableOffset_entry (by omega), index] at read
    omega
  have least : 8 ≤ (sizeOfBlock m relocation).toNat := by
    by_contra less
    have many : 2 ^ 31 - 4 ≤ (entryCount (sizeOfBlock m relocation)).toNat := by
      have wrapped : (sizeOfBlock m relocation - 8).toNat = 2 ^ 32 + (sizeOfBlock m relocation).toNat - 8 := by
        generalize sizeOfBlock m relocation = s at *
        bv_omega
      unfold entryCount
      rw [BitVec.toNat_udiv, wrapped]
      show 2 ^ 31 - 4 ≤ (2 ^ 32 + (sizeOfBlock m relocation).toNat - 8) / 2
      omega
    omega
  rw [entryCount_toNat least] at count
  exact ⟨limit, within, least, by omega, by omega⟩

theorem TerminatesInside.sized (terminates : TerminatesInside m image optHeader) (still : Undisturbed m image optHeader)
    (small : tableSize m optHeader + 8 < 2 ^ 32) (k : Nat) : Sized m image optHeader (ldrRelocateImage m image optHeader k) := by
  have fits : ∀ k m' relocation i, ldrRelocateImage m image optHeader k = .entry m' relocation i →
      tableOffset m image relocation < tableSize m optHeader ∧
        Fits m optHeader (tableOffset m image relocation) (sizeOfBlock m relocation).toNat := by
    intro k
    induction k with
    | zero =>
      intro m' relocation i here
      unfold ldrRelocateImage relocateStart at here
      simp only [Function.iterate_zero, id_eq] at here
      split at here <;> cases here
    | succ k ih =>
      intro m' relocation i here
      rw [run_succ] at here
      generalize before : ldrRelocateImage m image optHeader k = w at here
      cases w with
      | block last place =>
        by_cases goes : continues last image optHeader place
        · obtain ⟨_, fits⟩ := terminates.block_fits still small before goes
          rw [relocateStep, if_pos goes] at here
          split at here <;> cases here
          exact fits
        · rw [relocateStep, if_neg goes] at here
          cases here
      | entry last place index =>
        rw [relocateStep] at here
        split at here <;> cases here
        exact ih _ _ _ before
      | returned last result => cases here
      | int3 last => cases here
  generalize here : ldrRelocateImage m image optHeader k = w
  have memory := still.blocks k
  rw [here] at memory
  cases w with
  | block m' relocation =>
    intro goes
    obtain ⟨limit, within, fit⟩ := terminates.block_fits still small here goes
    rw [show sizeOfBlock m' relocation = sizeOfBlock m relocation from memory relocation within]
    exact ⟨limit, fit⟩
  | entry m' relocation i =>
    obtain ⟨within, fit⟩ := fits k m' relocation i here
    rw [Sized, show sizeOfBlock m' relocation = sizeOfBlock m relocation from memory relocation within]
    exact fit
  | returned m' result => trivial
  | int3 m' => trivial

/-- The walk ends inside its table where every size that it uses fits; where no patch disturbs the table, only there. -/
theorem ldrRelocateImage_terminatesInside (m : Memory) (image optHeader : Address) :
    ((∀ k, Sized m image optHeader (ldrRelocateImage m image optHeader k)) → TerminatesInside m image optHeader) ∧
    (Undisturbed m image optHeader → tableSize m optHeader + 8 < 2 ^ 32 → TerminatesInside m image optHeader →
      ∀ k, Sized m image optHeader (ldrRelocateImage m image optHeader k)) := by
  refine ⟨terminatesInside_of_sized, ?_⟩
  intro still small terminates
  exact terminates.sized still small

end needed

/-- One block whose size field is zero. -/
def emptyBlock : Memory := memoryOf (sampleHeaders 0x10000000 0x2000 8)

theorem emptyBlock_not_inside : ¬TerminatesInside emptyBlock 0x400000 0x400098 := by
  rintro ⟨_, inside⟩
  exact absurd (inside 1 (by decide)) (by decide)

end Gr8os.Ldr
