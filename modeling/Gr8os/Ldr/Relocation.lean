import Gr8os.Ldr.Image
import Gr8os.Lib.Run
import Mathlib.Algebra.GroupWithZero.Nat

/-! The loader's walk over a relocation table, which patches the memory that the table is part of, and what a
call leaves of an image whose table is well formed. -/
namespace Gr8os.Ldr

open LittleEndian Machine

def imageRelBasedHighlow : BitVec 16 := 3

/-- The fields of a block's header. -/
def virtualAddress (m : Memory) (relocation : Address) : BitVec 32 := ulong m relocation

def sizeOfBlock (m : Memory) (relocation : Address) : BitVec 32 := ulong m (relocation + 4)

/-- The number of entries behind a block's header. -/
def entryCount (size : BitVec 32) : BitVec 32 := (size - 8) / 2

/-- The entry that the loop's pointer has reached after so many rounds. -/
def fixupEntry (relocation : Address) (i : BitVec 32) : Address := relocation + 8 + 2 * i

def fixupType (entry : BitVec 16) : BitVec 16 := entry >>> 12

def fixupOffset (entry : BitVec 16) : BitVec 32 := (entry &&& 0xFFF).setWidth 32

/-- The values that the loader takes for addresses in the image. -/
def InImage (m : Memory) (optHeader : Address) (value : BitVec 32) : Prop :=
  imageBase m optHeader ≤ value ∧ value ≤ imageBase m optHeader + sizeOfImage m optHeader

instance (m : Memory) (optHeader : Address) (value : BitVec 32) : Decidable (InImage m optHeader value) :=
  inferInstanceAs (Decidable (_ ∧ _))

/-- The address that an entry has patched, if it is of the type that is. -/
def fixupTarget (m : Memory) (image relocation : Address) (i : BitVec 32) : Option Address :=
  let entry := ushort m (fixupEntry relocation i)
  if fixupType entry = imageRelBasedHighlow then some (virtualAddress m relocation + fixupOffset entry + image)
  else none

/-- One round of the inner loop. -/
def applyFixup (image optHeader : Address) (delta : BitVec 32) (m : Memory) (relocation : Address) (i : BitVec 32) : Memory :=
  match fixupTarget m image relocation i with
  | some target =>
    if InImage m optHeader (ulong m target) then setUlong m target (ulong m target + delta) else m
  | none => m

/-- Where the walk stands: at the outer loop's test, at the inner loop's, or at an end. -/
inductive Walk
  | block (m : Memory) (relocation : Address)
  | entry (m : Memory) (relocation : Address) (i : BitVec 32)
  | returned (m : Memory) (result : Bool)
  | int3 (m : Memory)

def Walk.memory : Walk → Memory
  | block m _ => m
  | entry m _ _ => m
  | returned m _ => m
  | int3 m => m

/-- The walk has met the breakpoint. -/
def Walk.stopped : Walk → Bool
  | int3 _ => true
  | _ => false

/-- The outer loop goes on. -/
def continues (m : Memory) (image optHeader relocation : Address) : Prop :=
  relocation - imageFirstRelocation m image < directorySize m optHeader .basereloc

instance (m : Memory) (image optHeader relocation : Address) : Decidable (continues m image optHeader relocation) :=
  inferInstanceAs (Decidable (_ < _))

def relocateStep (image optHeader : Address) (delta : BitVec 32) : Walk → Walk
  | .block m relocation =>
    if continues m image optHeader relocation then
      -- The breakpoint is a jump to itself.
      if sizeOfBlock m relocation > 0x10000 then .int3 m else .entry m relocation 0
    else .returned m true
  | .entry m relocation i =>
    if i < entryCount (sizeOfBlock m relocation) then
      .entry (applyFixup image optHeader delta m relocation i) relocation (i + 1)
    else .block m (relocation + sizeOfBlock m relocation)
  | .returned m result => .returned m result
  | .int3 m => .int3 m

def relocationDelta (m : Memory) (image optHeader : Address) : BitVec 32 := image - imageBase m optHeader

def relocateStart (m : Memory) (image : Address) : Walk :=
  if imageFirstRelocation m image = image then .returned m false else .block m (imageFirstRelocation m image)

/-- The walk that a call makes. -/
def ldrRelocateImage (m : Memory) (image optHeader : Address) (n : Nat) : Walk :=
  (relocateStep image optHeader (relocationDelta m image optHeader))^[n] (relocateStart m image)

open LittleEndian Machine

/-- The targets of the entries of one block, in their order. -/
def blockTargets (m : Memory) (image relocation : Address) (first count : Nat) : List Address :=
  (List.range' first count).filterMap fun i => fixupTarget m image relocation (BitVec.ofNat 32 i)

/-- The targets of a table of blocks of these sizes. -/
def targets (m : Memory) (image : Address) : Address → List Nat → List Address
  | _, [] => []
  | relocation, b :: bs =>
    blockTargets m image relocation 0 ((b - 8) / 2) ++ targets m image (relocation + BitVec.ofNat 32 b) bs

/-- Blocks of these sizes follow each other. -/
def Blocks (m : Memory) : Address → List Nat → Prop
  | _, [] => True
  | relocation, b :: bs =>
    8 ≤ b ∧ (sizeOfBlock m relocation).toNat = b ∧ Blocks m (relocation + BitVec.ofNat 32 b) bs

/-- The image has a relocation table whose blocks fill it and whose targets are disjoint words of the image. -/
structure WellFormed (m : Memory) (image optHeader : Address) (sizes : List Nat) : Prop where
  present : imageFirstRelocation m image ≠ image
  blocks : Blocks m (imageFirstRelocation m image) sizes
  filled : sizes.sum = (directorySize m optHeader .basereloc).toNat
  disjoint : (targets m image (imageFirstRelocation m image) sizes).Pairwise fun t u => Apart t 4 u 4
  inside : ∀ t ∈ targets m image (imageFirstRelocation m image) sizes,
    (t - image).toNat + 4 ≤ (sizeOfImage m optHeader).toNat

/-- The call returns, has moved the targets that hold addresses in the image, and has changed no other byte. -/
def Exact (m : Memory) (image optHeader : Address) (sizes : List Nat) : Prop :=
  ∃ n m', ldrRelocateImage m image optHeader n = .returned m' true ∧
    (∀ t ∈ targets m image (imageFirstRelocation m image) sizes,
      ulong m' t = if InImage m optHeader (ulong m t) then ulong m t + (image - imageBase m optHeader) else ulong m t) ∧
    ∀ x, (∀ t ∈ targets m image (imageFirstRelocation m image) sizes, InImage m optHeader (ulong m t) → ¬Covers t 4 x) →
      m' x = m x

/-- The bytes that the walk reads besides the targets: header fields and the table. -/
def Consulted (m : Memory) (image optHeader x : Address) : Prop :=
  Covers (image + 0x3C) 4 x ∨
  Covers (optionalHeader m image + 96 + 8 * ImageDirectoryEntry.basereloc.index) 4 x ∨
  Covers (optHeader + 28) 4 x ∨
  Covers (optHeader + 56) 4 x ∨
  Covers (optHeader + 96 + 8 * ImageDirectoryEntry.basereloc.index + 4) 4 x ∨
  Covers (imageFirstRelocation m image) (directorySize m optHeader .basereloc).toNat x

/-- What the walk relies on is the same in both memories. -/
structure Kept (image optHeader : Address) (m m' : Memory) : Prop where
  first : imageFirstRelocation m' image = imageFirstRelocation m image
  size : directorySize m' optHeader .basereloc = directorySize m optHeader .basereloc
  base : imageBase m' optHeader = imageBase m optHeader
  imageSize : sizeOfImage m' optHeader = sizeOfImage m optHeader
  table : ∀ x, Covers (imageFirstRelocation m image) (directorySize m optHeader .basereloc).toNat x → m' x = m x

/-- What an entry does to its target's value. -/
def shifted (m : Memory) (optHeader : Address) (delta value : BitVec 32) : BitVec 32 :=
  if InImage m optHeader value then value + delta else value

section kept

variable {m m' : Memory} {image optHeader relocation : Address} {delta : BitVec 32} {o : Nat}

theorem kept_of_consulted (same : ∀ x, Consulted m image optHeader x → m' x = m x) : Kept image optHeader m m' := by
  have lfanew : ulong m' (image + 0x3C) = ulong m (image + 0x3C) :=
    ulong_congr fun x covered => same x (Or.inl covered)
  have header : optionalHeader m' image = optionalHeader m image := by
    unfold optionalHeader eLfanew
    rw [lfanew]
  have address : directoryAddress m' (optionalHeader m image) .basereloc =
      directoryAddress m (optionalHeader m image) .basereloc :=
    ulong_congr fun x covered => same x (Or.inr (Or.inl covered))
  refine ⟨?_, ulong_congr fun x covered => ?_, ulong_congr fun x covered => ?_, ulong_congr fun x covered => ?_,
    fun x covered => ?_⟩
  · unfold imageFirstRelocation
    rw [header, address]
  · exact same x (Or.inr (Or.inr (Or.inr (Or.inr (Or.inl covered)))))
  · exact same x (Or.inr (Or.inr (Or.inl covered)))
  · exact same x (Or.inr (Or.inr (Or.inr (Or.inl covered))))
  · exact same x (Or.inr (Or.inr (Or.inr (Or.inr (Or.inr covered)))))

theorem Kept.inImage (kept : Kept image optHeader m m') (v : BitVec 32) :
    InImage m' optHeader v ↔ InImage m optHeader v := by
  unfold InImage
  rw [kept.base, kept.imageSize]

theorem Kept.at (kept : Kept image optHeader m m') {k : Nat} {x : Address}
    (covered : Covers (imageFirstRelocation m image + BitVec.ofNat 32 o) k x)
    (room : o + k ≤ (directorySize m optHeader .basereloc).toNat) : m' x = m x :=
  kept.table x (covered.widen room (directorySize m optHeader .basereloc).isLt)

theorem Kept.sizeOfBlock (kept : Kept image optHeader m m')
    (place : relocation = imageFirstRelocation m image + BitVec.ofNat 32 o)
    (room : o + 8 ≤ (directorySize m optHeader .basereloc).toNat) :
    sizeOfBlock m' relocation = sizeOfBlock m relocation := by
  have address : relocation + 4 = imageFirstRelocation m image + BitVec.ofNat 32 (o + 4) := by
    rw [place, BitVec.ofNat_add, ← BitVec.add_assoc]
    rfl
  unfold Ldr.sizeOfBlock
  rw [address]
  exact ulong_congr fun x covered => kept.at covered (by omega)

theorem Kept.fixupTarget (kept : Kept image optHeader m m') {i : Nat}
    (place : relocation = imageFirstRelocation m image + BitVec.ofNat 32 o)
    (room : o + 8 + 2 * (i + 1) ≤ (directorySize m optHeader .basereloc).toNat) :
    fixupTarget m' image relocation (BitVec.ofNat 32 i) = fixupTarget m image relocation (BitVec.ofNat 32 i) := by
  have address : virtualAddress m' relocation = virtualAddress m relocation := by
    unfold virtualAddress
    rw [place]
    exact ulong_congr fun x covered => kept.at covered (by omega)
  have entry : ushort m' (fixupEntry relocation (BitVec.ofNat 32 i)) = ushort m (fixupEntry relocation (BitVec.ofNat 32 i)) := by
    have here : fixupEntry relocation (BitVec.ofNat 32 i) =
        imageFirstRelocation m image + BitVec.ofNat 32 (o + (8 + 2 * i)) := by
      unfold fixupEntry
      rw [place, BitVec.ofNat_add o, BitVec.ofNat_add 8, BitVec.ofNat_mul, BitVec.add_assoc, BitVec.add_assoc]
      rfl
    rw [here]
    exact ushort_congr fun x covered => kept.at covered (by omega)
  unfold Ldr.fixupTarget
  rw [address, entry]

/-- A round of the inner loop is a patch of the entry's target. -/
theorem Kept.applyFixup (kept : Kept image optHeader m m') {i : BitVec 32}
    (same : Ldr.fixupTarget m' image relocation i = Ldr.fixupTarget m image relocation i) :
    applyFixup image optHeader delta m' relocation i =
      patchAll (shifted m optHeader delta) m' (Ldr.fixupTarget m image relocation i).toList := by
  unfold Ldr.applyFixup
  rw [same]
  cases Ldr.fixupTarget m image relocation i with
  | none => rfl
  | some t =>
    show (if InImage m' optHeader (ulong m' t) then setUlong m' t (ulong m' t + delta) else m') =
      setUlong m' t (shifted m optHeader delta (ulong m' t))
    by_cases inside : InImage m optHeader (ulong m' t)
    · rw [if_pos ((kept.inImage _).mpr inside), shifted, if_pos inside]
    · rw [if_neg (fun h => inside ((kept.inImage _).mp h)), shifted, if_neg inside, setUlong_ulong]

end kept

section runs

variable {m : Memory} {image optHeader relocation : Address} {delta : BitVec 32} {o : Nat} {moved : List Address}

theorem blockTargets_succ (i n : Nat) : blockTargets m image relocation i (n + 1) =
    (fixupTarget m image relocation (BitVec.ofNat 32 i)).toList ++ blockTargets m image relocation (i + 1) n := by
  unfold blockTargets
  rw [List.range'_succ, List.filterMap_cons]
  cases fixupTarget m image relocation (BitVec.ofNat 32 i) <;> rfl

theorem entryCount_toNat {size : BitVec 32} (least : 8 ≤ size.toNat) : (entryCount size).toNat = (size.toNat - 8) / 2 := by
  unfold entryCount
  have sub : (size - 8).toNat = size.toNat - 8 := BitVec.toNat_sub_of_le (BitVec.le_def.mpr least)
  rw [BitVec.toNat_udiv, sub]
  rfl

/-- The inner loop patches the targets of the entries from one on; the memory before it has the earlier ones patched. -/
theorem entries_run {b : Nat} (place : relocation = imageFirstRelocation m image + BitVec.ofNat 32 o) (least : 8 ≤ b)
    (size : (sizeOfBlock m relocation).toNat = b) (room : o + b ≤ (directorySize m optHeader .basereloc).toNat)
    (n : Nat) {i : Nat} (count : i + n = (b - 8) / 2)
    (kept : ∀ us, us <+: blockTargets m image relocation i n →
      Kept image optHeader m (patchAll (shifted m optHeader delta) m (moved ++ us))) :
    Reaches (relocateStep image optHeader delta)
      (.entry (patchAll (shifted m optHeader delta) m moved) relocation (BitVec.ofNat 32 i))
      (.block (patchAll (shifted m optHeader delta) m (moved ++ blockTargets m image relocation i n))
        (relocation + BitVec.ofNat 32 b)) := by
  have small := (directorySize m optHeader .basereloc).isLt
  induction n generalizing i moved with
  | zero =>
    have here := kept [] List.nil_prefix
    rw [List.append_nil] at here
    have same := here.sizeOfBlock place (by omega)
    have bound : ¬BitVec.ofNat 32 i < entryCount (sizeOfBlock m relocation) := by
      rw [BitVec.lt_def, entryCount_toNat (by omega), BitVec.toNat_ofNat, Nat.mod_eq_of_lt (by omega)]
      omega
    have advance : relocation + sizeOfBlock m relocation = relocation + BitVec.ofNat 32 b := by
      rw [← size, BitVec.ofNat_toNat, BitVec.setWidth_eq]
    refine .head ?_
    rw [relocateStep, same, if_neg bound, advance]
    exact (List.append_nil moved).symm ▸ .refl _
  | succ n ih =>
    have here := kept [] List.nil_prefix
    rw [List.append_nil] at here
    have same := here.sizeOfBlock place (by omega)
    have bound : BitVec.ofNat 32 i < entryCount (sizeOfBlock m relocation) := by
      rw [BitVec.lt_def, entryCount_toNat (by omega), BitVec.toNat_ofNat, Nat.mod_eq_of_lt (by omega)]
      omega
    have fixup := @Kept.applyFixup _ _ _ _ _ delta here _ (here.fixupTarget (i := i) place (by omega))
    have next : BitVec.ofNat 32 i + 1 = BitVec.ofNat 32 (i + 1) := (BitVec.ofNat_add i 1).symm
    refine .head ?_
    rw [relocateStep, same, if_pos bound, fixup, ← patchAll_append, next, blockTargets_succ, ← List.append_assoc]
    apply ih (by omega)
    intro us front
    rw [List.append_assoc]
    apply kept
    rw [blockTargets_succ]
    exact (List.prefix_append_right_inj _).mpr front

/-- The outer loop patches the targets of the blocks from one on. -/
theorem blocks_run {sizes : List Nat} (blocks : Blocks m relocation sizes)
    (place : relocation = imageFirstRelocation m image + BitVec.ofNat 32 o) (short : ∀ b ∈ sizes, b ≤ 0x10000)
    (filled : o + sizes.sum = (directorySize m optHeader .basereloc).toNat)
    (kept : ∀ us, us <+: targets m image relocation sizes →
      Kept image optHeader m (patchAll (shifted m optHeader delta) m (moved ++ us))) :
    Reaches (relocateStep image optHeader delta) (.block (patchAll (shifted m optHeader delta) m moved) relocation)
      (.returned (patchAll (shifted m optHeader delta) m (moved ++ targets m image relocation sizes)) true) := by
  have small := (directorySize m optHeader .basereloc).isLt
  induction sizes generalizing relocation o moved with
  | nil =>
    have here := kept [] List.nil_prefix
    rw [List.append_nil] at here
    have atEnd : ¬continues (patchAll (shifted m optHeader delta) m moved) image optHeader relocation := by
      unfold continues
      rw [here.first, here.size, place, BitVec.add_comm, BitVec.add_sub_cancel, BitVec.lt_def, BitVec.toNat_ofNat,
        Nat.mod_eq_of_lt (by simp only [List.sum_nil] at filled; omega)]
      simp only [List.sum_nil] at filled
      omega
    refine .head ?_
    rw [relocateStep, if_neg atEnd]
    exact (List.append_nil moved).symm ▸ .refl _
  | cons b bs ih =>
    obtain ⟨least, size, rest⟩ := blocks
    rw [List.sum_cons] at filled
    have here := kept [] List.nil_prefix
    rw [List.append_nil] at here
    have goes : continues (patchAll (shifted m optHeader delta) m moved) image optHeader relocation := by
      unfold continues
      rw [here.first, here.size, place, BitVec.add_comm, BitVec.add_sub_cancel, BitVec.lt_def, BitVec.toNat_ofNat,
        Nat.mod_eq_of_lt (by omega)]
      omega
    have bounded : ¬sizeOfBlock (patchAll (shifted m optHeader delta) m moved) relocation > 0x10000 := by
      have limit := short b List.mem_cons_self
      rw [here.sizeOfBlock place (by omega), gt_iff_lt, BitVec.lt_def, size]
      exact Nat.not_lt.mpr limit
    refine .head ?_
    rw [relocateStep, if_pos goes, if_neg bounded]
    refine (entries_run (i := 0) place least size (by omega) _ (Nat.zero_add _) ?_).trans ?_
    · intro us front
      exact kept us (front.trans (List.prefix_append _ _))
    · have next : relocation + BitVec.ofNat 32 b = imageFirstRelocation m image + BitVec.ofNat 32 (o + b) := by
        rw [place, BitVec.ofNat_add, BitVec.add_assoc]
      rw [targets, ← List.append_assoc]
      apply ih rest next (fun c member => short c (List.mem_cons_of_mem _ member)) (by omega)
      intro us front
      rw [List.append_assoc]
      exact kept _ ((List.prefix_append_right_inj _).mpr front)

end runs

section exact

variable {m : Memory} {image optHeader : Address} {sizes : List Nat}

/-- Patches of targets apart from what the walk reads leave that as it was. -/
theorem kept_prefix {delta : BitVec 32} {ts us : List Address} (disjoint : ts.Pairwise fun t u => Apart t 4 u 4)
    (apart : ∀ t ∈ ts, InImage m optHeader (ulong m t) → ∀ x, Consulted m image optHeader x → ¬Covers t 4 x)
    (front : us <+: ts) : Kept image optHeader m (patchAll (shifted m optHeader delta) m us) := by
  apply kept_of_consulted
  intro x consulted
  apply patchAll_outside (disjoint.sublist front.sublist)
  intro t member changed
  have inside : InImage m optHeader (ulong m t) := by
    by_contra outside
    exact changed (if_neg outside)
  exact apart t (front.subset member) inside x consulted

/-- Relocation is exact where no block is longer than the breakpoint allows and no target that is moved lies
in the table or in the header fields that the walk reads. -/
theorem ldrRelocateImage_exact (ok : WellFormed m image optHeader sizes) (short : ∀ b ∈ sizes, b ≤ 0x10000)
    (apart : ∀ t ∈ targets m image (imageFirstRelocation m image) sizes, InImage m optHeader (ulong m t) →
      ∀ x, Consulted m image optHeader x → ¬Covers t 4 x) : Exact m image optHeader sizes := by
  have place : imageFirstRelocation m image = imageFirstRelocation m image + BitVec.ofNat 32 0 := (BitVec.add_zero _).symm
  have start : relocateStart m image = .block m (imageFirstRelocation m image) := if_neg ok.present
  have run := @blocks_run m image optHeader _ (relocationDelta m image optHeader) _ [] _ ok.blocks place short
    ((Nat.zero_add _).trans ok.filled) fun us front => kept_prefix ok.disjoint apart front
  obtain ⟨n, here⟩ := run
  refine ⟨n, patchAll (shifted m optHeader (relocationDelta m image optHeader)) m
    (targets m image (imageFirstRelocation m image) sizes), ?_, fun t member => ?_, fun x outside => ?_⟩
  · unfold ldrRelocateImage
    rw [start]
    exact here
  · exact patchAll_target ok.disjoint member
  · apply patchAll_outside ok.disjoint
    intro t member changed
    apply outside t member
    by_contra inside
    exact changed (if_neg inside)

theorem not_exact_of_int3 {k : Nat} (stopped : (ldrRelocateImage m image optHeader k).stopped) :
    ¬Exact m image optHeader sizes := by
  rintro ⟨n, m', returned, _⟩
  have final : ∀ w : Walk, w.stopped → relocateStep image optHeader (relocationDelta m image optHeader) w = w := by
    intro w held
    cases w <;> first | rfl | cases held
  have same : ldrRelocateImage m image optHeader k = .returned m' true :=
    Reaches.unique ⟨k, rfl⟩ ⟨n, returned⟩ (final _ stopped) rfl
  rw [same] at stopped
  cases stopped

end exact

/-- A memory that holds some words and is zero elsewhere. -/
def memoryOf (words : List (Address × BitVec 32)) : Memory :=
  words.foldr (fun word m => setUlong m word.1 word.2) fun _ => 0

theorem memoryOf_zero {words : List (Address × BitVec 32)} {x : Address}
    (outside : ∀ word ∈ words, ¬Covers word.1 4 x) :
    memoryOf words x = 0 := by
  induction words with
  | nil => rfl
  | cons word words ih =>
    exact (setUlong_outside (outside word List.mem_cons_self)).trans
      (ih fun other member => outside other (List.mem_cons_of_mem _ member))

/-- Headers at 0x400000 with the optional header at 0x400098 and a relocation table at 0x401000. -/
def sampleHeaders (base imageSize tableSize : BitVec 32) : List (Address × BitVec 32) :=
  [(0x40003C, 0x80), (0x4000B4, base), (0x4000D0, imageSize), (0x400120, 0x1000), (0x400124, tableSize)]

/-- One block of zero entries that is longer than the breakpoint allows. -/
def longBlock : Memory := memoryOf ((0x401004, 0x10008) :: sampleHeaders 0x10000000 0x20000 0x10008)

/-- The first block's entry has the second block's size for its target. -/
def sizeFixed : Memory :=
  memoryOf ((0x401000, 0x1000) :: (0x401004, 12) :: (0x401008, 0x3010) :: (0x401010, 8) :: sampleHeaders 0 0x2000 20)

/-- One entry and its padding; the target holds an address in the image. -/
def oneFixup : Memory :=
  memoryOf ((0x401000, 0x2000) :: (0x401004, 12) :: (0x401008, 0x3000) :: (0x402000, 0x10000010) ::
    sampleHeaders 0x10000000 0x3000 12)

/-- The one target is moved by the distance between the two bases. -/
theorem ldrRelocateImage_exact_oneFixup : Exact oneFixup 0x400000 0x400098 [12] := by
  have first : imageFirstRelocation oneFixup 0x400000 = 0x401000 := by decide
  have moved : targets oneFixup 0x400000 0x401000 [12] = [0x402000] := by decide
  apply ldrRelocateImage_exact
  · refine ⟨by decide, ⟨by decide, by decide, trivial⟩, by decide, ?_, ?_⟩
    · rw [first, moved]
      exact List.pairwise_singleton _ _
    · rw [first, moved]
      intro t member
      rw [List.mem_singleton.mp member]
      decide
  · intro b member
    rw [List.mem_singleton.mp member]
    decide
  · rw [first, moved]
    intro t member _ x consulted
    rw [List.mem_singleton.mp member]
    rcases consulted with covered | covered | covered | covered | covered | covered <;>
      exact apart_of_distance (by decide) (by decide) x covered

theorem longBlock_targets : targets longBlock 0x400000 0x401000 [0x10008] = [] := by
  have zero : ∀ x : Address, 0x401008 ≤ x.toNat → x.toNat < 0x500000 → longBlock x = 0 := by
    intro x low high
    apply memoryOf_zero
    simp only [sampleHeaders, List.forall_mem_cons, Covers]
    refine ⟨?_, ?_, ?_, ?_, ?_, ?_, fun _ impossible => nomatch impossible⟩ <;> bv_omega
  have none : ∀ i ∈ List.range' 0 0x8000, fixupTarget longBlock 0x400000 0x401000 (BitVec.ofNat 32 i) = none := by
    intro i member
    have less : i < 0x8000 := by simpa using member
    have place : (fixupEntry 0x401000 (BitVec.ofNat 32 i)).toNat = 0x401008 + 2 * i := by
      unfold fixupEntry
      bv_omega
    have low := zero (fixupEntry 0x401000 (BitVec.ofNat 32 i)) (by omega) (by omega)
    have high := zero (fixupEntry 0x401000 (BitVec.ofNat 32 i) + 1) (by bv_omega) (by bv_omega)
    unfold fixupTarget ushort
    rw [low, high]
    rfl
  have block : blockTargets longBlock 0x400000 0x401000 0 0x8000 = [] := List.filterMap_eq_nil_iff.mpr none
  exact congrArg (· ++ []) block

theorem longBlock_wellFormed : WellFormed longBlock 0x400000 0x400098 [0x10008] := by
  have first : imageFirstRelocation longBlock 0x400000 = 0x401000 := by decide
  refine ⟨by decide, ⟨by decide, by decide, trivial⟩, by decide, ?_, ?_⟩
  · rw [first, longBlock_targets]
    exact List.Pairwise.nil
  · rw [first, longBlock_targets]
    intro t impossible
    cases impossible

theorem sizeFixed_wellFormed : WellFormed sizeFixed 0x400000 0x400098 [12, 8] := by
  have first : imageFirstRelocation sizeFixed 0x400000 = 0x401000 := by decide
  have moved : targets sizeFixed 0x400000 0x401000 [12, 8] = [0x401010] := by decide
  refine ⟨by decide, ⟨by decide, by decide, by decide, by decide, trivial⟩, by decide, ?_, ?_⟩
  · rw [first, moved]
    exact List.pairwise_singleton _ _
  · rw [first, moved]
    intro t member
    rw [List.mem_singleton.mp member]
    decide

/-- Neither a block over the breakpoint's limit nor a target in the table is relocated exactly. -/
theorem ldrRelocateImage_inexact :
    (WellFormed longBlock 0x400000 0x400098 [0x10008] ∧ ¬Exact longBlock 0x400000 0x400098 [0x10008]) ∧
    WellFormed sizeFixed 0x400000 0x400098 [12, 8] ∧ ¬Exact sizeFixed 0x400000 0x400098 [12, 8] := by
  refine ⟨⟨longBlock_wellFormed, ?_⟩, sizeFixed_wellFormed, ?_⟩
  · exact not_exact_of_int3 (k := 1) (by decide)
  · exact not_exact_of_int3 (k := 5) (by decide)

end Gr8os.Ldr
