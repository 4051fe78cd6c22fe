import Mathlib.Data.Nat.Bitwise
import Gr8os.Lib.Follow

/-! The file allocation table of a mounted FAT volume and the walk along a cluster chain.
A result of none is a machine that no longer runs: in a checked build, a failed assertion. -/
namespace Gr8os.FsFat

open Follow

inductive FatType
  | fat12
  | fat16
  | fat32
deriving DecidableEq, Repr

structure FsfatHeader where
  sectorSize : BitVec 16 := 512
  sectorsPerCluster : BitVec 8 := 1
deriving DecidableEq, Repr

/-- The table is the memory from its first byte on, of which only a part need be loaded.
Reading the volume at an offset fills a buffer of the given size or fails. -/
structure Fsfatvcb where
  clusterSize : BitVec 32 := 512
  rawFileObject : BitVec 32 → BitVec 32 → Option (Nat → BitVec 8) := fun _ _ => none
  fatHeader : FsfatHeader := {}
  cluster2StartSector : BitVec 32 := 0
  fat : BitVec 32 → BitVec 8
  sizeOfFatLoaded : BitVec 32
  fatType : FatType

namespace Fsfatvcb

def fatUshort (vcb : Fsfatvcb) (nByte : BitVec 32) : BitVec 16 := vcb.fat (nByte + 1) ++ vcb.fat nByte

def fatUlong (vcb : Fsfatvcb) (nByte : BitVec 32) : BitVec 32 :=
  vcb.fatUshort (nByte + 2) ++ vcb.fatUshort nByte

end Fsfatvcb

/-- The two bytes that hold a 12-bit entry. -/
def readFat12 (vcb : Fsfatvcb) (nByte : BitVec 32) : Option (BitVec 16) :=
  if vcb.sizeOfFatLoaded ≤ nByte then
    (vcb.rawFileObject nByte 2).map fun buffer => buffer 1 ++ buffer 0
  else
    some (vcb.fatUshort nByte)

def fsFatReadFatEntry (checked : Bool) (vcb : Fsfatvcb) (index : BitVec 32) : Option (BitVec 32) :=
  match vcb.fatType with
  | .fat12 =>
    if index % 2 = 0 then
      match readFat12 vcb (index * 3 / 2) with
      | some buffer => some ((buffer &&& 0xFFF).setWidth 32)
      | none => if checked then none else some (-1)
    else
      match readFat12 vcb ((index + 1) * 3 / 2 - 2) with
      | some buffer => some ((buffer >>> 4).setWidth 32)
      | none => if checked then none else some (-1)
  | .fat16 => some ((vcb.fatUshort (index * 2)).setWidth 32)
  | .fat32 => some (vcb.fatUlong (index * 4) &&& 0x0FFFFFFF)

structure FsfatClusters where
  mask : BitVec 32
  reservedStart : BitVec 32
  reservedEnd : BitVec 32
  badCluster : BitVec 32
  lastClusterStart : BitVec 32
deriving DecidableEq, Repr

def fsFatGetClTable : FatType → FsfatClusters
  | .fat12 => ⟨0xFFF, 0xFF0, 0xFF6, 0xFF7, 0xFF8⟩
  | .fat16 => ⟨0xFFFF, 0xFFFF0, 0xFFFF6, 0xFFFF7, 0xFFFF8⟩
  | .fat32 => ⟨0x0FFFFFFF, 0x0FFFFFF0, 0x0FFFFFF6, 0x0FFFFFF7, 0x0FFFFFF8⟩

def cluster (vcb : Fsfatvcb) (x : BitVec 32) : BitVec 32 := x &&& (fsFatGetClTable vcb.fatType).mask

/-- The loop of the walk, with the positions still to go. -/
def fsFatWalk (checked : Bool) (vcb : Fsfatvcb) : Nat → BitVec 32 → Option (BitVec 32)
  | 0, cluster => some cluster
  | left + 1, cluster =>
    let table := fsFatGetClTable vcb.fatType
    (fsFatReadFatEntry checked vcb cluster).bind fun cluster =>
      if table.lastClusterStart ≤ cluster then some (-1)
      else if table.reservedStart ≤ cluster ∧ cluster ≤ table.reservedEnd then some (-3)
      else if cluster = table.badCluster then some (-2)
      else fsFatWalk checked vcb left cluster

def fsFatFileClusterByPos (checked : Bool) (vcb : Fsfatvcb) (chainHead pos : BitVec 32) :
    Option (BitVec 32) :=
  fsFatWalk checked vcb pos.toNat (cluster vcb chainHead)

/-! What the table says: an entry is a fixed number of bits at a multiple of the entry size. -/

def FatType.width : FatType → Nat
  | .fat12 => 12
  | .fat16 => 16
  | .fat32 => 28

def FatType.entryBits : FatType → Nat
  | .fat12 => 12
  | .fat16 => 16
  | .fat32 => 32

namespace Fsfatvcb

def fatBit (vcb : Fsfatvcb) (i : Nat) : Bool := (vcb.fat (BitVec.ofNat 32 (i / 8))).getLsbD (i % 8)

/-- The number that the entry of a cluster holds. -/
def link (vcb : Fsfatvcb) (c : BitVec 32) : BitVec 32 :=
  BitVec.ofNat 32 (Nat.ofBits fun j : Fin vcb.fatType.width =>
    vcb.fatBit (vcb.fatType.entryBits * c.toNat + j))

/-- The entry of a cluster ends within the loaded part. -/
def Loaded (vcb : Fsfatvcb) (c : BitVec 32) : Prop :=
  (vcb.fatType.entryBits * c.toNat + vcb.fatType.entryBits - 1) / 8 < vcb.sizeOfFatLoaded.toNat

instance (vcb : Fsfatvcb) (c : BitVec 32) : Decidable (vcb.Loaded c) := inferInstanceAs (Decidable (_ < _))

theorem getLsbD_link (vcb : Fsfatvcb) (c : BitVec 32) (j : Nat) :
    (vcb.link c).getLsbD j =
      (decide (j < vcb.fatType.width) && vcb.fatBit (vcb.fatType.entryBits * c.toNat + j)) := by
  have narrow : vcb.fatType.width ≤ 32 := by cases vcb.fatType <;> decide
  rw [link, BitVec.getLsbD_ofNat]
  cases inside : decide (j < vcb.fatType.width) with
  | true =>
    have less := of_decide_eq_true inside
    simp only [Nat.testBit_ofBits_lt _ _ less, Bool.true_and, Bool.and_eq_right_iff_imp]
    intro _
    exact decide_eq_true (by omega)
  | false =>
    have outside := of_decide_eq_false inside
    rw [Nat.testBit_ofBits_ge _ _ (by omega)]
    simp

theorem link_lt (vcb : Fsfatvcb) (c : BitVec 32) : (vcb.link c).toNat < 2 ^ vcb.fatType.width := by
  have small := Nat.ofBits_lt_two_pow fun j : Fin vcb.fatType.width =>
    vcb.fatBit (vcb.fatType.entryBits * c.toNat + j)
  exact Nat.lt_of_le_of_lt (Nat.mod_le _ _) small

theorem fatBit_byte (vcb : Fsfatvcb) (n j : Nat) (inside : j < 8) :
    vcb.fatBit (8 * n + j) = (vcb.fat (BitVec.ofNat 32 n)).getLsbD j := by
  have byte : (8 * n + j) / 8 = n := by omega
  have position : (8 * n + j) % 8 = j := by omega
  simp only [fatBit, byte, position]

theorem getLsbD_fatUshort (vcb : Fsfatvcb) (n : BitVec 32) (j : Nat) (inside : j < 16) :
    (vcb.fatUshort n).getLsbD j = vcb.fatBit (8 * n.toNat + j) := by
  rw [fatUshort, BitVec.getLsbD_append]
  rcases Nat.lt_or_ge j 8 with low | high
  · rw [if_pos low]
    rw [fatBit_byte vcb n.toNat j low, BitVec.ofNat_toNat, BitVec.setWidth_eq]
  · have second : 8 * n.toNat + j = 8 * (n.toNat + 1) + (j - 8) := by omega
    have next : BitVec.ofNat 32 (n.toNat + 1) = n + 1 := by bv_omega
    rw [if_neg (Nat.not_lt.mpr high)]
    rw [second, fatBit_byte vcb _ _ (by omega), next]

theorem getLsbD_fatUlong (vcb : Fsfatvcb) (n : BitVec 32) (j : Nat) (inside : j < 32)
    (fits : n.toNat + 2 < 2 ^ 32) : (vcb.fatUlong n).getLsbD j = vcb.fatBit (8 * n.toNat + j) := by
  rw [fatUlong, BitVec.getLsbD_append]
  rcases Nat.lt_or_ge j 16 with low | high
  · rw [if_pos low]
    exact getLsbD_fatUshort vcb n j low
  · have next : (n + 2).toNat = n.toNat + 2 := by bv_omega
    rw [if_neg (Nat.not_lt.mpr high)]
    rw [getLsbD_fatUshort vcb _ _ (by omega), next]
    congr 1
    omega

end Fsfatvcb

theorem getLsbD_lowMask (w k j : Nat) (fits : k ≤ w) :
    (BitVec.ofNat w (2 ^ k - 1)).getLsbD j = decide (j < k) := by
  rw [BitVec.getLsbD_ofNat, Nat.testBit_two_pow_sub_one]
  cases less : decide (j < k) with
  | true =>
    have := of_decide_eq_true less
    simp only [Bool.and_true, decide_eq_true_eq]
    omega
  | false => exact Bool.and_false _

theorem readFat12_loaded (vcb : Fsfatvcb) (n : BitVec 32)
    (loaded : n.toNat < vcb.sizeOfFatLoaded.toNat) : readFat12 vcb n = some (vcb.fatUshort n) := by
  apply if_neg
  rw [BitVec.le_def]
  omega

theorem eq_link {vcb : Fsfatvcb} {c e : BitVec 32}
    (inside : ∀ j < vcb.fatType.width, e.getLsbD j = vcb.fatBit (vcb.fatType.entryBits * c.toNat + j))
    (above : ∀ j < 32, vcb.fatType.width ≤ j → e.getLsbD j = false) : e = vcb.link c := by
  apply BitVec.eq_of_getLsbD_eq
  intro j word
  rw [vcb.getLsbD_link]
  rcases Nat.lt_or_ge j vcb.fatType.width with low | high
  · rw [inside j low, decide_eq_true low, Bool.true_and]
  · rw [above j word high, decide_eq_false (Nat.not_lt.mpr high), Bool.false_and]

theorem readEntry_fat12_even {vcb : Fsfatvcb} {c : BitVec 32} (checked : Bool)
    (type : vcb.fatType = .fat12) (inRange : c.toNat < 2 ^ 12) (loaded : vcb.Loaded c)
    (even : c.toNat % 2 = 0) : fsFatReadFatEntry checked vcb c = some (vcb.link c) := by
  have equal {e : BitVec 32} := @eq_link vcb c e
  simp only [Fsfatvcb.Loaded, type, FatType.entryBits, FatType.width] at loaded equal
  have isEven : c % 2 = 0 := by bv_omega
  have triple : (c * 3).toNat = c.toNat * 3 := by bv_omega
  have offset : (c * 3 / 2).toNat = c.toNat * 3 / 2 := by rw [BitVec.toNat_udiv, triple]; rfl
  have here := readFat12_loaded vcb (c * 3 / 2) (by omega)
  have mask (j : Nat) : BitVec.getLsbD (0xFFF : BitVec 16) j = decide (j < 12) :=
    getLsbD_lowMask 16 12 j (by omega)
  simp only [fsFatReadFatEntry, type, isEven, if_true, here]
  congr 1
  apply equal
  · intro j low
    rw [BitVec.getLsbD_setWidth, BitVec.getLsbD_and, mask, decide_eq_true low,
      decide_eq_true (by omega), Bool.true_and, Bool.and_true, vcb.getLsbD_fatUshort _ _ (by omega),
      offset]
    congr 1
    omega
  · intro j _ high
    rw [BitVec.getLsbD_setWidth, BitVec.getLsbD_and, mask, decide_eq_false (Nat.not_lt.mpr high),
      Bool.and_false, Bool.and_false]

theorem readEntry_fat12_odd {vcb : Fsfatvcb} {c : BitVec 32} (checked : Bool)
    (type : vcb.fatType = .fat12) (inRange : c.toNat < 2 ^ 12) (loaded : vcb.Loaded c)
    (odd : c.toNat % 2 = 1) : fsFatReadFatEntry checked vcb c = some (vcb.link c) := by
  have equal {e : BitVec 32} := @eq_link vcb c e
  simp only [Fsfatvcb.Loaded, type, FatType.entryBits, FatType.width] at loaded equal
  have parity : (c % 2).toNat = c.toNat % 2 := by simp
  have isOdd : c % 2 ≠ 0 := by
    intro zero
    rw [zero, odd] at parity
    exact absurd parity (by decide)
  have triple : ((c + 1) * 3).toNat = (c.toNat + 1) * 3 := by bv_omega
  have half : ((c + 1) * 3 / 2).toNat = (c.toNat + 1) * 3 / 2 := by rw [BitVec.toNat_udiv, triple]; rfl
  have offset : ((c + 1) * 3 / 2 - 2).toNat = (c.toNat + 1) * 3 / 2 - 2 := by bv_omega
  have here := readFat12_loaded vcb ((c + 1) * 3 / 2 - 2) (by rw [offset]; omega)
  simp only [fsFatReadFatEntry, type, isOdd, if_false, here]
  congr 1
  apply equal
  · intro j low
    rw [BitVec.getLsbD_setWidth, BitVec.getLsbD_ushiftRight, decide_eq_true (by omega),
      Bool.true_and, vcb.getLsbD_fatUshort _ _ (by omega), offset]
    congr 1
    omega
  · intro j _ high
    rw [BitVec.getLsbD_setWidth, BitVec.getLsbD_ushiftRight, BitVec.getLsbD_of_ge _ _ (by omega),
      Bool.and_false]

/-- The 16-bit entries are read with no look at the size of the loaded part. -/
theorem readEntry_fat16 {vcb : Fsfatvcb} {c : BitVec 32} (checked : Bool)
    (type : vcb.fatType = .fat16) (inRange : c.toNat < 2 ^ 16) :
    fsFatReadFatEntry checked vcb c = some (vcb.link c) := by
  have equal {e : BitVec 32} := @eq_link vcb c e
  simp only [type, FatType.entryBits, FatType.width] at equal
  have offset : (c * 2).toNat = c.toNat * 2 := by bv_omega
  simp only [fsFatReadFatEntry, type]
  congr 1
  apply equal
  · intro j low
    rw [BitVec.getLsbD_setWidth, decide_eq_true (by omega), Bool.true_and,
      vcb.getLsbD_fatUshort _ _ low, offset]
    congr 1
    omega
  · intro j _ high
    rw [BitVec.getLsbD_setWidth, BitVec.getLsbD_of_ge _ _ high, Bool.and_false]

theorem readEntry_fat32 {vcb : Fsfatvcb} {c : BitVec 32} (checked : Bool)
    (type : vcb.fatType = .fat32) (inRange : c.toNat < 2 ^ 28) :
    fsFatReadFatEntry checked vcb c = some (vcb.link c) := by
  have equal {e : BitVec 32} := @eq_link vcb c e
  simp only [type, FatType.entryBits, FatType.width] at equal
  have offset : (c * 4).toNat = c.toNat * 4 := by bv_omega
  have mask (j : Nat) : BitVec.getLsbD (0x0FFFFFFF : BitVec 32) j = decide (j < 28) :=
    getLsbD_lowMask 32 28 j (by omega)
  simp only [fsFatReadFatEntry, type]
  congr 1
  apply equal
  · intro j low
    rw [BitVec.getLsbD_and, mask, decide_eq_true low, Bool.and_true,
      vcb.getLsbD_fatUlong _ _ (by omega) (by omega), offset]
    congr 1
    omega
  · intro j _ high
    rw [BitVec.getLsbD_and, mask, decide_eq_false (Nat.not_lt.mpr high), Bool.and_false]

theorem fsFatReadFatEntry_link (checked : Bool) {vcb : Fsfatvcb} {c : BitVec 32}
    (inRange : c.toNat < 2 ^ vcb.fatType.width) (loaded : vcb.fatType = .fat12 → vcb.Loaded c) :
    fsFatReadFatEntry checked vcb c = some (vcb.link c) := by
  cases type : vcb.fatType with
  | fat12 =>
    rw [type] at inRange
    rcases Nat.mod_two_eq_zero_or_one c.toNat with even | odd
    · exact readEntry_fat12_even checked type inRange (loaded type) even
    · exact readEntry_fat12_odd checked type inRange (loaded type) odd
  | fat16 => exact readEntry_fat16 checked type (by rwa [type] at inRange)
  | fat32 => exact readEntry_fat32 checked type (by rwa [type] at inRange)

/-! The sixteen highest numbers of a width stand for no cluster. -/

inductive Mark
  | endOfChain
  | badCluster
  | reserved
deriving DecidableEq, Repr

def FatType.mark (t : FatType) (e : BitVec 32) : Option Mark :=
  if 2 ^ t.width - 8 ≤ e.toNat then some .endOfChain
  else if e.toNat = 2 ^ t.width - 9 then some .badCluster
  else if 2 ^ t.width - 16 ≤ e.toNat then some .reserved
  else none

def Mark.answer : Mark → BitVec 32
  | .endOfChain => -1
  | .badCluster => -2
  | .reserved => -3

abbrev Fsfatvcb.mark (vcb : Fsfatvcb) : BitVec 32 → Option Mark := vcb.fatType.mark

/-- The table of the widths 12 and 28 has the marks where they are. -/
theorem table_exact {t : FatType} (wide : t ≠ .fat16) :
    (fsFatGetClTable t).lastClusterStart.toNat = 2 ^ t.width - 8 ∧
      (fsFatGetClTable t).badCluster.toNat = 2 ^ t.width - 9 ∧
      (fsFatGetClTable t).reservedEnd.toNat = 2 ^ t.width - 10 ∧
      (fsFatGetClTable t).reservedStart.toNat = 2 ^ t.width - 16 ∧ 16 ≤ 2 ^ t.width := by
  cases t with
  | fat16 => exact absurd rfl wide
  | fat12 => decide
  | fat32 => decide

theorem marks_told {t : FatType} (wide : t ≠ .fat16) (e : BitVec 32) (rest : Option (BitVec 32)) :
    (if (fsFatGetClTable t).lastClusterStart ≤ e then some (-1)
      else if (fsFatGetClTable t).reservedStart ≤ e ∧ e ≤ (fsFatGetClTable t).reservedEnd then some (-3)
      else if e = (fsFatGetClTable t).badCluster then some (-2)
      else rest) =
    match t.mark e with
    | some m => some m.answer
    | none => rest := by
  obtain ⟨last, bad, reservedEnd, reservedStart, top⟩ := table_exact wide
  simp only [BitVec.le_def, ← BitVec.toNat_inj, last, bad, reservedEnd, reservedStart, FatType.mark]
  split_ifs <;> first | rfl | omega

/-- The table of the width 16 has a digit too many, so that no entry reaches its marks. -/
theorem marks_missed {e : BitVec 32} (small : e.toNat < 2 ^ 16) (rest : Option (BitVec 32)) :
    (if (fsFatGetClTable .fat16).lastClusterStart ≤ e then some (-1)
      else if (fsFatGetClTable .fat16).reservedStart ≤ e ∧ e ≤ (fsFatGetClTable .fat16).reservedEnd then
        some (-3)
      else if e = (fsFatGetClTable .fat16).badCluster then some (-2)
      else rest) = rest := by
  simp only [fsFatGetClTable, BitVec.le_def, ← BitVec.toNat_inj]
  rw [if_neg (by simp; omega), if_neg (by simp; omega), if_neg (by simp; omega)]

theorem answer_large (m : Mark) : 2 ^ 28 ≤ m.answer.toNat := by cases m <;> decide

theorem width_le (t : FatType) : 2 ^ t.width ≤ 2 ^ 28 := by cases t <;> decide

theorem cluster_lt (vcb : Fsfatvcb) (x : BitVec 32) : (cluster vcb x).toNat < 2 ^ vcb.fatType.width := by
  have masked : (cluster vcb x).toNat ≤ (fsFatGetClTable vcb.fatType).mask.toNat := by
    rw [cluster, BitVec.toNat_and]
    exact Nat.and_le_right
  have mask : (fsFatGetClTable vcb.fatType).mask.toNat < 2 ^ vcb.fatType.width := by
    cases vcb.fatType <;> decide
  exact Nat.lt_of_le_of_lt masked mask

namespace Fsfatvcb

/-- The cluster at a position of the chain, as the table links them. -/
def clusterAt (vcb : Fsfatvcb) (chainHead : BitVec 32) (i : Nat) : BitVec 32 :=
  vcb.link^[i] (FsFat.cluster vcb chainHead)

/-- No mark is among the first links of the chain. -/
def Unmarked (vcb : Fsfatvcb) (chainHead : BitVec 32) (n : Nat) : Prop :=
  Clear vcb.link vcb.fatType.mark (FsFat.cluster vcb chainHead) n

instance (vcb : Fsfatvcb) (chainHead : BitVec 32) (n : Nat) : Decidable (vcb.Unmarked chainHead n) :=
  inferInstanceAs (Decidable (Clear _ _ _ _))

/-- The entries the chain goes through up to its first mark are in the loaded part. -/
def ChainLoaded (vcb : Fsfatvcb) (chainHead : BitVec 32) (n : Nat) : Prop :=
  ∀ i < n, vcb.Unmarked chainHead i → vcb.Loaded (vcb.clusterAt chainHead i)

instance (vcb : Fsfatvcb) (chainHead : BitVec 32) (n : Nat) : Decidable (vcb.ChainLoaded chainHead n) :=
  inferInstanceAs (Decidable (∀ i < n, _))

theorem clusterAt_lt (vcb : Fsfatvcb) (chainHead : BitVec 32) (i : Nat) :
    (vcb.clusterAt chainHead i).toNat < 2 ^ vcb.fatType.width := by
  cases i with
  | zero => exact cluster_lt vcb chainHead
  | succ i =>
    rw [clusterAt, Function.iterate_succ_apply']
    exact vcb.link_lt _

end Fsfatvcb

def told : Except Mark (BitVec 32) → BitVec 32
  | .ok c => c
  | .error m => m.answer

/-- Where the table is right the loop follows the chain to the position or to its first mark. -/
theorem fsFatWalk_follow {vcb : Fsfatvcb} (checked : Bool) (wide : vcb.fatType ≠ .fat16) {n : Nat}
    {c : BitVec 32} (inRange : c.toNat < 2 ^ vcb.fatType.width)
    (loaded : vcb.fatType = .fat12 → ∀ i < n, Clear vcb.link vcb.fatType.mark c i → vcb.Loaded (vcb.link^[i] c)) :
    fsFatWalk checked vcb n c = some (told (follow vcb.link vcb.fatType.mark n c)) := by
  induction n generalizing c with
  | zero => rfl
  | succ n ih =>
    have here (type : vcb.fatType = .fat12) : vcb.Loaded c :=
      loaded type 0 (by omega) (fun i less => absurd less (Nat.not_lt_zero i))
    simp only [fsFatWalk, fsFatReadFatEntry_link checked inRange here, Option.bind_some,
      marks_told wide, follow]
    cases first : vcb.fatType.mark (vcb.link c) with
    | some m => rfl
    | none =>
      apply ih (vcb.link_lt c)
      intro type i less clear
      exact loaded type (i + 1) (by omega) (.cons first clear)

/-- With 16-bit entries the loop passes over every mark. -/
theorem fsFatWalk_fat16 {vcb : Fsfatvcb} (checked : Bool) (type : vcb.fatType = .fat16) {n : Nat}
    {c : BitVec 32} (inRange : c.toNat < 2 ^ 16) :
    fsFatWalk checked vcb n c = some (vcb.link^[n] c) := by
  induction n generalizing c with
  | zero => rfl
  | succ n ih =>
    have small : (vcb.link c).toNat < 2 ^ 16 := by
      have := vcb.link_lt c
      rwa [type] at this
    simp only [fsFatWalk, type, readEntry_fat16 checked type inRange, Option.bind_some,
      marks_missed small]
    exact ih small

/-- The cluster at a position when no mark comes before it, else the answer for the first mark;
a mark is never given as a cluster. -/
structure ToldPosition (vcb : Fsfatvcb) (chainHead : BitVec 32) (n : Nat) (r : BitVec 32) : Prop where
  reached : vcb.Unmarked chainHead n → r = vcb.clusterAt chainHead n
  stopped : ∀ i < n, ∀ m, vcb.Unmarked chainHead i →
    vcb.fatType.mark (vcb.clusterAt chainHead (i + 1)) = some m → r = m.answer
  unmarked : (∀ m : Mark, r ≠ m.answer) → vcb.fatType.mark r = none

theorem toldPosition_follow {vcb : Fsfatvcb} {chainHead : BitVec 32} {n : Nat}
    (head : n = 0 → vcb.fatType.mark (vcb.clusterAt chainHead 0) = none) :
    ToldPosition vcb chainHead n
      (told (follow vcb.link vcb.fatType.mark n (cluster vcb chainHead))) := by
  rcases Decidable.em (vcb.Unmarked chainHead n) with clear | marked
  · rw [follow_clear clear]
    constructor
    · intro _
      rfl
    · intro i less m _ met
      have none := clear i less
      simp_all [Fsfatvcb.clusterAt]
    · intro _
      cases n with
      | zero => exact head rfl
      | succ n => exact clear n (by omega)
  · obtain ⟨k, less, clear, m, met⟩ := exists_first_mark marked
    rw [follow_marked clear met less]
    constructor
    · intro clear
      exact absurd clear marked
    · intro i before m' clear' met'
      have same := (follow_marked clear met less).symm.trans (follow_marked clear' met' before)
      cases same
      rfl
    · intro other
      exact absurd rfl (other m)

theorem clusterAt_ne_answer (vcb : Fsfatvcb) (chainHead : BitVec 32) (i : Nat) (m : Mark) :
    vcb.clusterAt chainHead i ≠ m.answer := by
  intro same
  have small := vcb.clusterAt_lt chainHead i
  have narrow := width_le vcb.fatType
  have large := answer_large m
  rw [same] at small
  omega

/-- The walk is right but for a chain head that is itself a mark, and for 16-bit entries it is right
only where it meets no mark. -/
theorem fsFatFileClusterByPos_told_iff (checked : Bool) (vcb : Fsfatvcb) (chainHead pos : BitVec 32)
    (loaded : vcb.ChainLoaded chainHead pos.toNat) :
    (∃ r, fsFatFileClusterByPos checked vcb chainHead pos = some r ∧
        ToldPosition vcb chainHead pos.toNat r) ↔
      (pos.toNat = 0 → vcb.fatType.mark (vcb.clusterAt chainHead 0) = none) ∧
        (vcb.fatType = .fat16 → vcb.Unmarked chainHead pos.toNat) := by
  have fat16 (type : vcb.fatType = .fat16) :
      fsFatFileClusterByPos checked vcb chainHead pos = some (vcb.clusterAt chainHead pos.toNat) := by
    apply fsFatWalk_fat16 checked type
    have small := cluster_lt vcb chainHead
    rwa [type] at small
  constructor
  · rintro ⟨r, returned, position⟩
    constructor
    · intro start
      rw [start] at position
      have head : r = vcb.clusterAt chainHead 0 :=
        position.reached fun i less => absurd less (Nat.not_lt_zero i)
      have unmarked := position.unmarked
      rw [head] at unmarked
      exact unmarked (clusterAt_ne_answer vcb chainHead 0)
    · intro type
      apply Decidable.byContradiction
      intro marked
      obtain ⟨k, less, clear, m, met⟩ := exists_first_mark marked
      have answered : r = m.answer := position.stopped k less m clear met
      have passed : r = vcb.clusterAt chainHead pos.toNat := by
        rw [fat16 type] at returned
        exact (Option.some.inj returned).symm
      exact clusterAt_ne_answer vcb chainHead _ m (passed.symm.trans answered)
  · rintro ⟨head, clear⟩
    refine ⟨_, ?_, toldPosition_follow head⟩
    rcases Decidable.em (vcb.fatType = .fat16) with type | wide
    · rw [fat16 type, follow_clear (clear type)]
      rfl
    · exact fsFatWalk_follow checked wide (cluster_lt vcb chainHead) fun _ => loaded

/-- A 12-bit table whose clusters 2 and 3 are one chain. -/
def floppy : Fsfatvcb where
  fat n := if n = 3 then 0x03 else if n = 4 then 0xF0 else if n = 5 then 0xFF else 0
  sizeOfFatLoaded := 512
  fatType := .fat12

theorem floppy_told :
    (∃ r, fsFatFileClusterByPos true floppy 2 2 = some r ∧ ToldPosition floppy 2 2 r) ∧
      fsFatFileClusterByPos true floppy 2 1 = some 3 ∧
      fsFatFileClusterByPos true floppy 2 2 = some (-1) :=
  ⟨(fsFatFileClusterByPos_told_iff true floppy 2 2 (by decide)).mpr (by decide), by decide, by decide⟩

/-- A 16-bit table in which the chain of cluster 2 ends at once. -/
def smallDisk : Fsfatvcb where
  fat n := if n = 4 then 0xFF else if n = 5 then 0xFF else 0
  sizeOfFatLoaded := 512
  fatType := .fat16

theorem smallDisk_end_passed :
    smallDisk.ChainLoaded 2 1 ∧ smallDisk.fatType.mark (smallDisk.clusterAt 2 1) = some .endOfChain ∧
      fsFatFileClusterByPos true smallDisk 2 1 = some 0xFFFF ∧ ¬ ToldPosition smallDisk 2 1 0xFFFF := by
  refine ⟨by decide, by decide, by decide, ?_⟩
  intro position
  have answered := position.stopped 0 (by decide) .endOfChain (by decide) (by decide)
  exact absurd answered (by decide)

end Gr8os.FsFat
