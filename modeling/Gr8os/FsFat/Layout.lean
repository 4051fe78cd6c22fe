import Gr8os.FsFat.Fat

/-! The regions of a FAT volume: where the driver looks for them, and how large it takes the last of them to be when
it counts the clusters. -/
namespace Gr8os.FsFat

/-- The fields of FSFAT_HEADER that tell how long each region is. -/
structure FsfatBpb extends FsfatHeader where
  reservedSectors : BitVec 16 := 1
  numberOfFats : BitVec 8 := 2
  directoryEntries : BitVec 16 := 512
  sectors : BitVec 16 := 0
  fatSectors : BitVec 16 := 0
  sectorsLong : BitVec 32 := 0
  fatSectors32 : BitVec 32 := 0
deriving DecidableEq, Repr

def sizeofFsfatDirEnt : BitVec 32 := 32

/-- ALIGN_UP, for any alignment. -/
def alignUp (x align : BitVec 32) : BitVec 32 :=
  if x &&& (align - 1) ≠ 0 then (x &&& ~~~(align - 1)) + align else x

namespace FsfatBpb

variable (fh : FsfatBpb)

def fatSz : BitVec 32 := if fh.fatSectors ≠ 0 then fh.fatSectors.setWidth 32 else fh.fatSectors32

def totalSectors : BitVec 32 := if fh.sectors ≠ 0 then fh.sectors.setWidth 32 else fh.sectorsLong

/-- The bytes of a root directory of fixed size. -/
def rootDirBytes : BitVec 32 := fh.directoryEntries.setWidth 32 * sizeofFsfatDirEnt

def rootDirSectors : BitVec 32 :=
  (fh.rootDirBytes + (fh.sectorSize.setWidth 32 - 1)) / fh.sectorSize.setWidth 32

def dataSec : BitVec 32 :=
  fh.totalSectors -
    (fh.reservedSectors.setWidth 32 + fh.numberOfFats.setWidth 32 * fh.fatSz + fh.rootDirSectors)

def countOfClusters : BitVec 32 := fh.dataSec / fh.sectorsPerCluster.setWidth 32

end FsfatBpb

/-- The type by the number of clusters. -/
def fatTypeOf (countOfClusters : BitVec 32) : FatType :=
  if countOfClusters < 4085 then .fat12 else if countOfClusters < 65525 then .fat16 else .fat32

/-- A division by zero stops the machine. -/
def fsFatGetFatType (fh : FsfatBpb) : Option FatType :=
  if fh.sectorSize = 0 ∨ fh.sectorsPerCluster = 0 then none else some (fatTypeOf fh.countOfClusters)

/-- What FsFatCreateVcb writes to the volume control block before it reads the table. -/
structure FsfatRegions where
  fat1StartSector : BitVec 32
  fat2StartSector : BitVec 32
  dirStartSector : BitVec 32
  cluster2StartSector : BitVec 32
  clusterSize : BitVec 32
  fatType : FatType
deriving DecidableEq, Repr

def fsFatCreateVcb (fh : FsfatBpb) : Option FsfatRegions :=
  let fat1StartSector := fh.reservedSectors.setWidth 32
  let fat2StartSector := fat1StartSector + fh.fatSz
  let dirStartSector := fat2StartSector + fh.fatSz
  let cluster2StartSector :=
    dirStartSector + alignUp fh.rootDirBytes (fh.sectorSize.setWidth 32) / fh.sectorSize.setWidth 32
  (fsFatGetFatType fh).map fun fatType =>
    { fat1StartSector, fat2StartSector, dirStartSector, cluster2StartSector,
      clusterSize := fh.sectorsPerCluster.setWidth 32 * fh.sectorSize.setWidth 32, fatType }

/-- The first sector that FsFatReadCluster reads. -/
def startSector (fh : FsfatBpb) (r : FsfatRegions) (cluster : BitVec 32) : BitVec 32 :=
  r.cluster2StartSector + (cluster - 2) * fh.sectorsPerCluster.setWidth 32

/-- Where the regions start, in numbers that have no bound. -/
def dirStart (fh : FsfatBpb) : Nat := fh.reservedSectors.toNat + fh.numberOfFats.toNat * fh.fatSz.toNat

def dataStart (fh : FsfatBpb) : Nat :=
  dirStart fh + (32 * fh.directoryEntries.toNat + fh.sectorSize.toNat - 1) / fh.sectorSize.toNat

/-- A parameter block of a volume that has room for its regions. -/
structure Sized (fh : FsfatBpb) : Prop where
  sectorSize : fh.sectorSize ≠ 0
  sectorsPerCluster : fh.sectorsPerCluster ≠ 0
  numberOfFats : fh.numberOfFats ≠ 0
  fits : dataStart fh ≤ fh.totalSectors.toNat

/-- The two computations find the same regions, and nothing wraps in them. -/
structure LayoutAgrees (fh : FsfatBpb) (r : FsfatRegions) : Prop where
  fat1 : r.fat1StartSector.toNat = fh.reservedSectors.toNat
  fat2 : r.fat2StartSector.toNat = fh.reservedSectors.toNat + fh.fatSz.toNat
  dir : r.dirStartSector.toNat = dirStart fh
  cluster2 : r.cluster2StartSector.toNat = dataStart fh
  counted : r.cluster2StartSector.toNat + fh.dataSec.toNat = fh.totalSectors.toNat
  type : r.fatType = fatTypeOf fh.countOfClusters
  clusters : ∀ cluster : BitVec 32, 2 ≤ cluster.toNat → cluster.toNat < 2 + fh.countOfClusters.toNat →
    (startSector fh r cluster).toNat = dataStart fh + (cluster.toNat - 2) * fh.sectorsPerCluster.toNat ∧
      (startSector fh r cluster).toNat + fh.sectorsPerCluster.toNat ≤ fh.totalSectors.toNat

/-- What FsFatCreateVcb takes for granted: there are two tables, and clearing the low bits of the directory's length
takes off what is more than whole sectors. -/
def Granted (fh : FsfatBpb) : Prop :=
  (fh.numberOfFats = 2 ∨ fh.fatSz = 0) ∧
    (32 * fh.directoryEntries.toNat % fh.sectorSize.toNat = 0 ∨
      0 < (fh.rootDirBytes &&& (fh.sectorSize.setWidth 32 - 1)).toNat ∧
        (fh.rootDirBytes &&& (fh.sectorSize.setWidth 32 - 1)).toNat ≤
          32 * fh.directoryEntries.toNat % fh.sectorSize.toNat)

section align

variable {x align : BitVec 32}

/-- A word is made of the bits under a mask and of the others. -/
theorem mask_toNat (x mask : BitVec 32) : (x &&& mask).toNat + (x &&& ~~~mask).toNat = x.toNat := by
  have apart : (x &&& mask) &&& (x &&& ~~~mask) = 0 := by
    apply BitVec.eq_of_getLsbD_eq
    intro i _
    simp
    grind
  have whole : (x &&& mask) + (x &&& ~~~mask) = x := by
    rw [BitVec.add_eq_or_of_and_eq_zero _ _ apart]
    apply BitVec.eq_of_getLsbD_eq
    intro i inside
    simp
    grind
  rw [← BitVec.toNat_add_of_and_eq_zero apart, whole]

/-- The quotient that is one less than, or what, the next multiple gives. -/
theorem ceil_div {s q r : Nat} (below : r < s) : (s * q + r + s - 1) / s = if r = 0 then q else q + 1 := by
  have pos : 0 < s := Nat.lt_of_le_of_lt (Nat.zero_le r) below
  have parted : s * q + r + s - 1 = s * q + (r + s - 1) := by omega
  rw [parted, Nat.mul_add_div pos]
  split
  · rw [Nat.div_eq_of_lt (by omega), Nat.add_zero]
  · rw [Nat.div_eq_of_lt_le (by omega : 1 * s ≤ r + s - 1) (by omega)]

/-- Rounding up by clearing low bits reaches the next multiple where what is cleared is no more than the remainder. -/
theorem alignUp_div (some : 0 < align.toNat) (small : x.toNat + align.toNat < 4294967296) :
    (alignUp x align / align).toNat = (x.toNat + align.toNat - 1) / align.toNat ↔
      x.toNat % align.toNat = 0 ∨ 0 < (x &&& (align - 1)).toNat ∧ (x &&& (align - 1)).toNat ≤ x.toNat % align.toNat := by
  have mask := mask_toNat x (align - 1)
  have lowest : (x &&& (align - 1)).toNat < align.toNat := by
    have most : (x &&& (align - 1)).toNat ≤ (align - 1).toNat := by
      rw [BitVec.toNat_and]
      exact Nat.and_le_right
    have pred : (align - 1).toNat = align.toNat - 1 := by bv_omega
    omega
  have divided := Nat.div_add_mod x.toNat align.toNat
  have below := Nat.mod_lt x.toNat some
  have ceil := ceil_div (q := x.toNat / align.toNat) below
  rw [divided] at ceil
  rw [ceil, BitVec.toNat_udiv]
  unfold alignUp
  by_cases low : x &&& (align - 1) = 0
  · rw [if_neg (not_not_intro low), low]
    change _ ↔ _ ∨ 0 < 0 ∧ _
    split <;> omega
  · have cleared : 0 < (x &&& (align - 1)).toNat := by
      apply Nat.pos_of_ne_zero
      exact fun zero => low (BitVec.eq_of_toNat_eq zero)
    have up : ((x &&& ~~~(align - 1)) + align).toNat = (x &&& ~~~(align - 1)).toNat + align.toNat := by
      rw [BitVec.toNat_add]
      omega
    rw [if_pos low, up, Nat.add_div_right _ some]
    generalize (x &&& (align - 1)).toNat = l at *
    generalize (x &&& ~~~(align - 1)).toNat = c at *
    generalize x.toNat / align.toNat = q at *
    generalize x.toNat % align.toNat = r at *
    by_cases within : l ≤ r
    · have quotient : c / align.toNat = q := by
        have place : c = align.toNat * q + (r - l) := by omega
        rw [place, Nat.mul_add_div some, Nat.div_eq_of_lt (by omega), Nat.add_zero]
      rw [quotient]
      split <;> omega
    · cases q with
      | zero =>
        rw [Nat.mul_zero] at divided
        omega
      | succ q =>
        have quotient : c / align.toNat = q := by
          rw [Nat.mul_succ] at divided
          have place : c = align.toNat * q + (align.toNat + r - l) := by omega
          rw [place, Nat.mul_add_div some, Nat.div_eq_of_lt (by omega), Nat.add_zero]
        rw [quotient]
        split <;> omega

end align

section layout

variable {fh : FsfatBpb} {r : FsfatRegions}

theorem setWidth_pos {w : Nat} {x : BitVec w} (fits : w ≤ 32) (ne : x ≠ 0) : 0 < (x.setWidth 32).toNat := by
  rw [BitVec.toNat_setWidth_of_le fits]
  exact Nat.pos_of_ne_zero fun zero => ne (BitVec.eq_of_toNat_eq zero)

theorem rootDirBytes_toNat (fh : FsfatBpb) : fh.rootDirBytes.toNat = 32 * fh.directoryEntries.toNat := by
  have bound := fh.directoryEntries.isLt
  unfold FsfatBpb.rootDirBytes sizeofFsfatDirEnt
  rw [BitVec.toNat_mul, BitVec.toNat_setWidth_of_le (by decide)]
  change fh.directoryEntries.toNat * 32 % 4294967296 = _
  omega

theorem sectorSize_toNat (fh : FsfatBpb) : (fh.sectorSize.setWidth 32).toNat = fh.sectorSize.toNat :=
  BitVec.toNat_setWidth_of_le (by decide)

theorem rootDirSectors_toNat (sized : Sized fh) : fh.rootDirSectors.toNat =
    (32 * fh.directoryEntries.toNat + fh.sectorSize.toNat - 1) / fh.sectorSize.toNat := by
  have some : 0 < (fh.sectorSize.setWidth 32).toNat := setWidth_pos (by decide) sized.sectorSize
  have bytes := rootDirBytes_toNat fh
  have bound := fh.directoryEntries.isLt
  have bound' := fh.sectorSize.isLt
  have size := sectorSize_toNat fh
  have sum : (fh.rootDirBytes + (fh.sectorSize.setWidth 32 - 1)).toNat =
      32 * fh.directoryEntries.toNat + fh.sectorSize.toNat - 1 := by bv_omega
  unfold FsfatBpb.rootDirSectors
  rw [BitVec.toNat_udiv, sum, size]

theorem fats_toNat (sized : Sized fh) :
    (fh.numberOfFats.setWidth 32 * fh.fatSz).toNat = fh.numberOfFats.toNat * fh.fatSz.toNat := by
  have fits := sized.fits
  have bound := fh.totalSectors.isLt
  unfold dataStart dirStart at fits
  generalize (32 * fh.directoryEntries.toNat + fh.sectorSize.toNat - 1) / fh.sectorSize.toNat = root at fits
  rw [BitVec.toNat_mul, BitVec.toNat_setWidth_of_le (by decide)]
  exact Nat.mod_eq_of_lt (by omega)

/-- The sectors that are counted as data are those behind the regions. -/
theorem dataSec_toNat (sized : Sized fh) : dataStart fh + fh.dataSec.toNat = fh.totalSectors.toNat := by
  have fits := sized.fits
  have bound := fh.totalSectors.isLt
  have reserved : (fh.reservedSectors.setWidth 32).toNat = fh.reservedSectors.toNat :=
    BitVec.toNat_setWidth_of_le (by decide)
  have start : (fh.reservedSectors.setWidth 32 + fh.numberOfFats.setWidth 32 * fh.fatSz + fh.rootDirSectors).toNat =
      dataStart fh := by
    rw [BitVec.toNat_add, BitVec.toNat_add, reserved, fats_toNat sized, rootDirSectors_toNat sized]
    unfold dataStart dirStart at *
    generalize (32 * fh.directoryEntries.toNat + fh.sectorSize.toNat - 1) / fh.sectorSize.toNat = root at *
    omega
  unfold FsfatBpb.dataSec
  rw [BitVec.toNat_sub_of_le (BitVec.le_def.mpr (start ▸ fits)), start]
  omega

/-- Twice the length of a table is the length of all tables where there are two. -/
theorem two_fats {reserved count : Nat} (size : Nat) (some : 0 < count) (fits : reserved + count * size < 4294967296) :
    (reserved + size + size) % 4294967296 = reserved + count * size ↔ count = 2 ∨ size = 0 := by
  constructor
  · intro same
    by_contra other
    obtain ⟨ne, used⟩ := not_or.mp other
    by_cases one : count = 1
    · rw [one, Nat.one_mul] at same fits
      omega
    · have more : 3 * size ≤ count * size := Nat.mul_le_mul_right size (by omega)
      omega
  · rintro (rfl | rfl)
    · omega
    · rw [Nat.mul_zero] at *
      omega

/-- The table that is there is as long as it takes to be counted at all. -/
theorem fat_fits (sized : Sized fh) : fh.reservedSectors.toNat + fh.fatSz.toNat ≤ dirStart fh := by
  have some : 0 < fh.numberOfFats.toNat :=
    Nat.pos_of_ne_zero fun zero => sized.numberOfFats (BitVec.eq_of_toNat_eq zero)
  have one : 1 * fh.fatSz.toNat ≤ fh.numberOfFats.toNat * fh.fatSz.toNat := Nat.mul_le_mul_right _ some
  unfold dirStart
  omega

theorem clusters_inside (sized : Sized fh) (start : r.cluster2StartSector.toNat = dataStart fh) {cluster : BitVec 32}
    (low : 2 ≤ cluster.toNat) (high : cluster.toNat < 2 + fh.countOfClusters.toNat) :
    (startSector fh r cluster).toNat = dataStart fh + (cluster.toNat - 2) * fh.sectorsPerCluster.toNat ∧
      (startSector fh r cluster).toNat + fh.sectorsPerCluster.toNat ≤ fh.totalSectors.toNat := by
  have bound := fh.totalSectors.isLt
  have counted := dataSec_toNat sized
  have width : (fh.sectorsPerCluster.setWidth 32).toNat = fh.sectorsPerCluster.toNat :=
    BitVec.toNat_setWidth_of_le (by decide)
  have count : fh.countOfClusters.toNat = fh.dataSec.toNat / fh.sectorsPerCluster.toNat := by
    unfold FsfatBpb.countOfClusters
    rw [BitVec.toNat_udiv, width]
  have whole : (cluster.toNat - 2 + 1) * fh.sectorsPerCluster.toNat ≤ fh.dataSec.toNat := by
    apply Nat.le_trans (Nat.mul_le_mul_right _ (by omega : cluster.toNat - 2 + 1 ≤ fh.countOfClusters.toNat))
    rw [count]
    exact Nat.div_mul_le_self _ _
  rw [Nat.add_mul, Nat.one_mul] at whole
  have back : (cluster - 2).toNat = cluster.toNat - 2 := by bv_omega
  have place : (startSector fh r cluster).toNat = dataStart fh + (cluster.toNat - 2) * fh.sectorsPerCluster.toNat := by
    unfold startSector
    rw [BitVec.toNat_add, BitVec.toNat_mul, back, width, start]
    omega
  exact ⟨place, by omega⟩

theorem fsFatCreateVcb_eq (sized : Sized fh) : ∃ r, fsFatCreateVcb fh = some r ∧
    r.fat1StartSector.toNat = fh.reservedSectors.toNat ∧
    r.fat2StartSector.toNat = (fh.reservedSectors.toNat + fh.fatSz.toNat) % 4294967296 ∧
    r.dirStartSector.toNat = (fh.reservedSectors.toNat + fh.fatSz.toNat + fh.fatSz.toNat) % 4294967296 ∧
    r.cluster2StartSector.toNat = (r.dirStartSector.toNat +
      (alignUp fh.rootDirBytes (fh.sectorSize.setWidth 32) / fh.sectorSize.setWidth 32).toNat) % 4294967296 ∧
    r.fatType = fatTypeOf fh.countOfClusters := by
  have notZero : ¬(fh.sectorSize = 0 ∨ fh.sectorsPerCluster = 0) :=
    not_or.mpr ⟨sized.sectorSize, sized.sectorsPerCluster⟩
  have type : fsFatGetFatType fh = some (fatTypeOf fh.countOfClusters) := if_neg notZero
  have reserved : (fh.reservedSectors.setWidth 32).toNat = fh.reservedSectors.toNat :=
    BitVec.toNat_setWidth_of_le (by decide)
  unfold fsFatCreateVcb
  rw [type]
  refine ⟨_, rfl, reserved, ?_, ?_, BitVec.toNat_add _ _, rfl⟩
  · simp only [BitVec.toNat_add, reserved]
  · simp only [BitVec.toNat_add, reserved]
    omega

/-- FsFatCreateVcb and FsFatGetFatType see the same regions where there are two tables, or they are empty, and the root
directory ends with a sector or can be rounded up by clearing bits. -/
theorem fsFatCreateVcb_agrees_iff (sized : Sized fh) :
    (∃ r, fsFatCreateVcb fh = some r ∧ LayoutAgrees fh r) ↔ Granted fh := by
  obtain ⟨r, runs, fat1, fat2, dir, cluster2, type⟩ := fsFatCreateVcb_eq sized
  have fits := sized.fits
  have bound := fh.totalSectors.isLt
  have some : 0 < fh.numberOfFats.toNat :=
    Nat.pos_of_ne_zero fun zero => sized.numberOfFats (BitVec.eq_of_toNat_eq zero)
  have size : 0 < (fh.sectorSize.setWidth 32).toNat := setWidth_pos (by decide) sized.sectorSize
  have bytes := rootDirBytes_toNat fh
  have short : fh.rootDirBytes.toNat + (fh.sectorSize.setWidth 32).toNat < 4294967296 := by
    have most := fh.directoryEntries.isLt
    have most' := fh.sectorSize.isLt
    have width := sectorSize_toNat fh
    omega
  have dirFits : dirStart fh < 4294967296 := by
    unfold dataStart at fits
    generalize (32 * fh.directoryEntries.toNat + fh.sectorSize.toNat - 1) / fh.sectorSize.toNat = root at fits
    omega
  have fats := two_fats fh.fatSz.toNat some dirFits
  have count : fh.numberOfFats.toNat = 2 ↔ fh.numberOfFats = 2 :=
    ⟨fun same => BitVec.eq_of_toNat_eq same, fun same => congrArg BitVec.toNat same⟩
  have empty : fh.fatSz.toNat = 0 ↔ fh.fatSz = 0 :=
    ⟨fun same => BitVec.eq_of_toNat_eq same, fun same => congrArg BitVec.toNat same⟩
  have dirs : r.dirStartSector.toNat = dirStart fh ↔ fh.numberOfFats = 2 ∨ fh.fatSz = 0 := by
    rw [dir, ← count, ← empty]
    exact fats
  have rounds := alignUp_div size short
  rw [bytes, sectorSize_toNat] at rounds
  have ends (same : r.dirStartSector.toNat = dirStart fh) : r.cluster2StartSector.toNat = dataStart fh ↔
      (alignUp fh.rootDirBytes (fh.sectorSize.setWidth 32) / fh.sectorSize.setWidth 32).toNat =
        (32 * fh.directoryEntries.toNat + fh.sectorSize.toNat - 1) / fh.sectorSize.toNat := by
    have below := (alignUp fh.rootDirBytes (fh.sectorSize.setWidth 32) / fh.sectorSize.setWidth 32).isLt
    rw [cluster2, same]
    unfold dataStart at fits ⊢
    generalize (32 * fh.directoryEntries.toNat + fh.sectorSize.toNat - 1) / fh.sectorSize.toNat = root at fits ⊢
    generalize (alignUp fh.rootDirBytes (fh.sectorSize.setWidth 32) / fh.sectorSize.setWidth 32).toNat = aligned at below ⊢
    omega
  constructor
  · rintro ⟨r', runs', agrees⟩
    rw [runs] at runs'
    obtain rfl := Option.some.inj runs'
    exact ⟨dirs.mp agrees.dir, rounds.mp ((ends agrees.dir).mp agrees.cluster2)⟩
  · rintro ⟨two, rounded⟩
    have same := dirs.mpr two
    have start := (ends same).mpr (rounds.mpr rounded)
    refine ⟨r, runs, fat1, ?_, same, start, ?_, type, fun cluster => clusters_inside sized start⟩
    · have one := fat_fits sized
      rw [fat2]
      exact Nat.mod_eq_of_lt (Nat.lt_of_le_of_lt one dirFits)
    · rw [start]
      exact dataSec_toNat sized

/-- Every power of two will do for the length of a sector. -/
theorem granted_powers {k : Nat} (power : fh.sectorSize.toNat = 2 ^ k) (two : fh.numberOfFats = 2) : Granted fh := by
  have bytes := rootDirBytes_toNat fh
  have width := sectorSize_toNat fh
  have some : 0 < 2 ^ k := Nat.two_pow_pos k
  have mask : (fh.sectorSize.setWidth 32 - 1).toNat = 2 ^ k - 1 := by bv_omega
  have low : (fh.rootDirBytes &&& (fh.sectorSize.setWidth 32 - 1)).toNat =
      32 * fh.directoryEntries.toNat % fh.sectorSize.toNat := by
    rw [BitVec.toNat_and, bytes, mask, power]
    exact Nat.and_two_pow_sub_one_eq_mod _ _
  refine ⟨.inl two, ?_⟩
  rw [low]
  exact (Nat.eq_zero_or_pos _).imp_right fun pos => ⟨pos, Nat.le_refl _⟩

end layout

/-- A floppy disk of 1.44 MB. -/
def floppyBpb : FsfatBpb where
  directoryEntries := 224
  sectors := 2880
  fatSectors := 9

theorem floppyBpb_agrees : ∃ r, fsFatCreateVcb floppyBpb = some r ∧ LayoutAgrees floppyBpb r :=
  (fsFatCreateVcb_agrees_iff ⟨by decide, by decide, by decide, by decide⟩).mpr
    ⟨.inl (by decide), .inl (by decide)⟩

/-- The same disk with one table. -/
def singleFatBpb : FsfatBpb := { floppyBpb with numberOfFats := 1 }

theorem singleFatBpb_shifted : Sized singleFatBpb ∧
    (fsFatCreateVcb singleFatBpb).map (·.dirStartSector.toNat) = some 19 ∧ dirStart singleFatBpb = 10 ∧
    ¬∃ r, fsFatCreateVcb singleFatBpb = some r ∧ LayoutAgrees singleFatBpb r := by
  have shifted : (fsFatCreateVcb singleFatBpb).map (·.dirStartSector.toNat) = some 19 := by decide
  refine ⟨⟨by decide, by decide, by decide, by decide⟩, shifted, by decide, ?_⟩
  rintro ⟨r, runs, agrees⟩
  have dir : r.dirStartSector.toNat = 10 := agrees.dir
  rw [runs, Option.map_some, dir] at shifted
  exact absurd shifted (by decide)

end Gr8os.FsFat
