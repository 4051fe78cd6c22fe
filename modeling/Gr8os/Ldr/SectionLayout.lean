import Gr8os.Ldr.Relocation
import Gr8os.Ldr.Sections

/-! Which section tables are laid out in the image as they say. -/
namespace Gr8os.Ldr

open LittleEndian

section layout

variable (checked : Bool) (file : ImageFile) (image : Address) (m : Memory)

def sectionCount : Nat := (numberOfSections m (miGetHeaders m image)).toNat

/-- The read that the table as it stands at first asks for. -/
def plannedRead (i : Nat) : SectionRead := sectionRead m image (miGetHeaders m image) (BitVec.ofNat 32 i)

/-- The bytes that section i of the table is to hold: those of the file, then zeros. -/
def sectionByte (i k : Nat) : BitVec 8 :=
  if k < (sizeOfRawData m (miGetHeaders m image) (BitVec.ofNat 32 i)).toNat then (plannedRead image m i).fileByte file k
  else 0

/-- The loop stores in the mapped bytes only, and where it succeeds every section holds what the table says. -/
def LaysOut : Prop :=
  (∀ r ∈ (loadSections checked file image m).reads, ∀ x, Covers r.buffer (r.information file) x →
    Covers image (alignedImageSize m image).toNat x) ∧
  ((loadSections checked file image m).outcome = .loaded →
    ∀ i < sectionCount image m, ∀ k < (virtualSize m (miGetHeaders m image) (BitVec.ofNat 32 i)).toNat,
      (loadSections checked file image m).memory ((plannedRead image m i).buffer + BitVec.ofNat 32 k) =
        sectionByte file image m i k)

/-- The loop comes to section i if the table does not change. -/
def ComesTo (i : Nat) : Prop := ∀ j < i, (plannedRead image m j).goesOn file checked = true

instance (i : Nat) : Decidable (ComesTo checked file image m i) := inferInstanceAs (Decidable (∀ j < i, _))

def afterReads : Nat → Memory
  | 0 => m
  | i + 1 => (plannedRead image m i).store file (afterReads i)

/-- The last of the first reads that stores a byte at an address. -/
def lastRead : Nat → Address → Option SectionRead
  | 0, _ => none
  | i + 1, x =>
    if Covers (plannedRead image m i).buffer ((plannedRead image m i).information file) x then some (plannedRead image m i)
    else lastRead i x

/-- The byte at an address after all the reads. -/
def loadedByte (x : Address) : BitVec 8 :=
  match lastRead file image m (sectionCount image m) x with
  | some r => r.fileByte file (x - r.buffer).toNat
  | none => m x

/-- What the loop takes from the headers is the same in both memories. -/
structure SameHeaders (m' : Memory) : Prop where
  sections : numberOfSections m' (miGetHeaders m image) = numberOfSections m (miGetHeaders m image)
  imageSize : sizeOfImage m' (miGetHeaders m image).optHeader = sizeOfImage m (miGetHeaders m image).optHeader
  table : ∀ i < sectionCount image m,
    virtualSize m' (miGetHeaders m image) (BitVec.ofNat 32 i) = virtualSize m (miGetHeaders m image) (BitVec.ofNat 32 i) ∧
    sectionAddress m' (miGetHeaders m image) (BitVec.ofNat 32 i) =
      sectionAddress m (miGetHeaders m image) (BitVec.ofNat 32 i) ∧
    pointerToRawData m' (miGetHeaders m image) (BitVec.ofNat 32 i) =
      pointerToRawData m (miGetHeaders m image) (BitVec.ofNat 32 i)

/-- No section is read over the headers with other bytes than theirs. -/
def HeadersKept : Prop :=
  ∀ i ≤ sectionCount image m, ComesTo checked file image m i → SameHeaders image m (afterReads file image m i)

/-- Every read ends in the mapped bytes, and the last read of each byte of a section takes the byte that it is to hold. -/
structure Fitting : Prop where
  inside : ∀ i < sectionCount image m, ComesTo checked file image m i →
    (plannedRead image m i).information file = 0 ∨
    (sectionAddress m (miGetHeaders m image) (BitVec.ofNat 32 i)).toNat + (plannedRead image m i).information file ≤
      (alignedImageSize m image).toNat
  filled : ComesTo checked file image m (sectionCount image m) →
    ∀ i < sectionCount image m, ∀ k < (virtualSize m (miGetHeaders m image) (BitVec.ofNat 32 i)).toNat,
      loadedByte file image m ((plannedRead image m i).buffer + BitVec.ofNat 32 k) = sectionByte file image m i k

end layout

section loop

variable {checked : Bool} {file : ImageFile} {image : Address} {m m' : Memory} {i rounds : Nat}

theorem sectionCount_lt : sectionCount image m < 0x10000 := BitVec.isLt _

theorem SameHeaders.sectionRead (same : SameHeaders image m m') (less : i < sectionCount image m) :
    sectionRead m' image (miGetHeaders m image) (BitVec.ofNat 32 i) = plannedRead image m i := by
  obtain ⟨virtual, address, pointer⟩ := same.table i less
  have few := @sectionCount_lt image m
  have next : BitVec.ofNat 32 i ≠ (numberOfSections m (miGetHeaders m image)).setWidth 32 - 1 →
      sectionAddress m' (miGetHeaders m image) (BitVec.ofNat 32 i + 1) =
        sectionAddress m (miGetHeaders m image) (BitVec.ofNat 32 i + 1) := by
    intro before
    have index : BitVec.ofNat 32 i + 1 = BitVec.ofNat 32 (i + 1) := (BitVec.ofNat_add i 1).symm
    rw [index]
    apply (same.table (i + 1) _).2.1
    unfold sectionCount at less few ⊢
    generalize numberOfSections m (miGetHeaders m image) = n at less few before ⊢
    by_contra last
    apply before
    apply BitVec.eq_of_toNat_eq
    have count : i + 1 = n.toNat := by omega
    bv_omega
  unfold plannedRead Ldr.sectionRead sectionSize
  rw [same.sections, same.imageSize, virtual, address, pointer]
  split
  · rfl
  · rw [next ‹_›]

theorem goesOn_iff {r : SectionRead} : r.goesOn file checked = true ↔
    ¬(checked && r.information file != r.size.toNat) = true ∧ ¬(!r.succeeds file) = true := by
  unfold SectionRead.goesOn
  cases checked <;> cases r.succeeds file <;> simp

/-- From a section on, a run makes the planned reads up to the first that it does not go on behind. -/
def Planned (checked : Bool) (file : ImageFile) (image : Address) (m : Memory) (i : Nat) (run : SectionsRun) : Prop :=
  (∀ r, r ∈ run.reads ↔ ∃ j, i ≤ j ∧ j < sectionCount image m ∧ ComesTo checked file image m j ∧ r = plannedRead image m j) ∧
  (run.outcome = .loaded ↔ ComesTo checked file image m (sectionCount image m)) ∧
  (run.outcome = .loaded → run.memory = afterReads file image m (sectionCount image m))

theorem planned_end (comes : ComesTo checked file image m (sectionCount image m)) :
    Planned checked file image m (sectionCount image m)
      ⟨[], afterReads file image m (sectionCount image m), .loaded⟩ := by
  refine ⟨fun r => ⟨fun impossible => absurd impossible List.not_mem_nil, ?_⟩,
    ⟨fun _ => comes, fun _ => rfl⟩, fun _ => rfl⟩
  rintro ⟨j, low, high, _⟩
  omega

/-- The run ends with the read of a section that it does not go on behind. -/
theorem planned_stop (less : i < sectionCount image m) (comes : ComesTo checked file image m i)
    (stops : ¬(plannedRead image m i).goesOn file checked = true) {run : SectionsRun}
    (reads : run.reads = [plannedRead image m i]) (outcome : run.outcome ≠ .loaded) :
    Planned checked file image m i run := by
  refine ⟨fun r => ?_, ⟨fun loaded => absurd loaded outcome, fun reached => absurd (reached i less) stops⟩,
    fun loaded => absurd loaded outcome⟩
  rw [reads, List.mem_singleton]
  constructor
  · rintro rfl
    exact ⟨i, Nat.le_refl i, less, comes, rfl⟩
  · rintro ⟨j, low, high, reached, rfl⟩
    rcases Nat.eq_or_lt_of_le low with rfl | later
    · rfl
    · exact absurd (reached i later) stops

theorem planned_read (less : i < sectionCount image m) (comes : ComesTo checked file image m i) {run : SectionsRun}
    (rest : Planned checked file image m (i + 1) run) :
    Planned checked file image m i { run with reads := plannedRead image m i :: run.reads } := by
  obtain ⟨reads, outcome, memory⟩ := rest
  refine ⟨fun r => ?_, outcome, memory⟩
  rw [List.mem_cons]
  constructor
  · rintro (rfl | later)
    · exact ⟨i, Nat.le_refl i, less, comes, rfl⟩
    · obtain ⟨j, low, rest⟩ := (reads r).mp later
      exact ⟨j, by omega, rest⟩
  · rintro ⟨j, low, high, reached, rfl⟩
    rcases Nat.eq_or_lt_of_le low with rfl | later
    · exact Or.inl rfl
    · exact Or.inr ((reads _).mpr ⟨j, later, high, reached, rfl⟩)

theorem ComesTo.next (comes : ComesTo checked file image m i) (goes : (plannedRead image m i).goesOn file checked = true) :
    ComesTo checked file image m (i + 1) := by
  intro j earlier
  rcases Nat.lt_succ_iff_lt_or_eq.mp earlier with before | rfl
  · exact comes j before
  · exact goes

theorem sectionLoop_planned (kept : HeadersKept checked file image m) (limit : i ≤ sectionCount image m)
    (enough : sectionCount image m ≤ i + rounds) (comes : ComesTo checked file image m i) :
    Planned checked file image m i
      (sectionLoop checked file image (miGetHeaders m image) rounds (BitVec.ofNat 32 i) (afterReads file image m i)) := by
  have few := @sectionCount_lt image m
  induction rounds generalizing i with
  | zero =>
    have last : i = sectionCount image m := by omega
    subst last
    exact planned_end comes
  | succ rounds ih =>
    have same := kept i limit comes
    have test : BitVec.ofNat 32 i < (numberOfSections (afterReads file image m i) (miGetHeaders m image)).setWidth 32 ↔
        i < sectionCount image m := by
      rw [same.sections, BitVec.lt_def, BitVec.toNat_ofNat, BitVec.toNat_setWidth]
      unfold sectionCount at few limit ⊢
      omega
    unfold sectionLoop
    by_cases less : i < sectionCount image m
    · rw [if_pos (test.mpr less), same.sectionRead less]
      dsimp only
      by_cases goes : (plannedRead image m i).goesOn file checked = true
      · have next : BitVec.ofNat 32 i + 1 = BitVec.ofNat 32 (i + 1) := (BitVec.ofNat_add i 1).symm
        obtain ⟨full, succeeds⟩ := goesOn_iff.mp goes
        rw [if_neg full, if_neg succeeds, next]
        exact planned_read less comes (ih less (by omega) (comes.next goes))
      · split
        · exact planned_stop less comes goes rfl (by simp)
        · split
          · exact planned_stop less comes goes rfl (by simp)
          · exact absurd (goesOn_iff.mpr ⟨‹_›, ‹_›⟩) goes
    · have last : i = sectionCount image m := by omega
      rw [if_neg (fun inside => less (test.mp inside))]
      subst last
      exact planned_end comes

theorem afterReads_eq (i : Nat) (x : Address) : afterReads file image m i x =
    match lastRead file image m i x with
    | some r => r.fileByte file (x - r.buffer).toNat
    | none => m x := by
  induction i with
  | zero => rfl
  | succ i ih =>
    unfold lastRead
    by_cases covered : Covers (plannedRead image m i).buffer ((plannedRead image m i).information file) x
    · rw [if_pos covered]
      exact if_pos covered
    · rw [if_neg covered]
      exact (if_neg covered).trans ih

theorem information_lt (r : SectionRead) : r.information file < 2 ^ 32 :=
  Nat.lt_of_le_of_lt (file.reads.bounded r.offset r.size) r.size.isLt

theorem loadSections_planned (kept : HeadersKept checked file image m) :
    (∀ r, r ∈ (loadSections checked file image m).reads ↔
      ∃ j < sectionCount image m, ComesTo checked file image m j ∧ r = plannedRead image m j) ∧
    ((loadSections checked file image m).outcome = .loaded ↔ ComesTo checked file image m (sectionCount image m)) ∧
    ((loadSections checked file image m).outcome = .loaded →
      (loadSections checked file image m).memory = afterReads file image m (sectionCount image m)) := by
  have few := @sectionCount_lt image m
  have start : ComesTo checked file image m 0 := fun j impossible => absurd impossible (Nat.not_lt_zero j)
  obtain ⟨reads, outcome, memory⟩ := @sectionLoop_planned _ _ _ _ 0 0x10000 kept (Nat.zero_le _) (by omega) start
  refine ⟨fun r => (reads r).trans ?_, outcome, memory⟩
  constructor
  · rintro ⟨j, _, rest⟩
    exact ⟨j, rest⟩
  · rintro ⟨j, rest⟩
    exact ⟨j, Nat.zero_le j, rest⟩

theorem laysOut_iff (kept : HeadersKept checked file image m) :
    LaysOut checked file image m ↔ Fitting checked file image m := by
  obtain ⟨reads, outcome, memory⟩ := loadSections_planned kept
  have place : ∀ i, (∀ x, Covers (plannedRead image m i).buffer ((plannedRead image m i).information file) x →
      Covers image (alignedImageSize m image).toNat x) ↔
      (plannedRead image m i).information file = 0 ∨
        (sectionAddress m (miGetHeaders m image) (BitVec.ofNat 32 i)).toNat + (plannedRead image m i).information file ≤
          (alignedImageSize m image).toNat :=
    fun i => covers_inside_iff (information_lt _) (alignedImageSize m image).isLt
  constructor
  · rintro ⟨inside, holds⟩
    refine ⟨fun i less comes => (place i).mp (inside _ ((reads _).mpr ⟨i, less, comes, rfl⟩)), ?_⟩
    intro comes i less k within
    have loaded := outcome.mpr comes
    have byte := holds loaded i less k within
    rw [memory loaded, afterReads_eq] at byte
    exact byte
  · rintro ⟨inside, filled⟩
    constructor
    · intro r member
      obtain ⟨j, less, comes, rfl⟩ := (reads r).mp member
      exact (place j).mpr (inside j less comes)
    · intro loaded i less k within
      rw [memory loaded, afterReads_eq]
      exact filled (outcome.mp loaded) i less k within

end loop

/-- The headers of an image of two pages at 0x400000 with one section. -/
def oneSection (address size rawSize pointer : BitVec 32) : Memory :=
  memoryOf [(0x40003C, 0x80), (0x400084, 0x1014C), (0x4000D0, 0x2000), (0x400180, size), (0x400184, address),
    (0x400188, rawSize), (0x40018C, pointer)]

/-- A file whose reads are all full ones, with code from 0x400 to 0x600 and zeros behind it. -/
def codeFile : ImageFile where
  byte o := if o < 0x600 then 0x90 else 0
  reads := ⟨fun _ _ => true, fun _ size => size.toNat, fun _ _ => Nat.le_refl _⟩

end Gr8os.Ldr
