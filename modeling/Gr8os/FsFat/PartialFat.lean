import Gr8os.FsFat.Layout
import Gr8os.FsFat.Packing

/-! The part of the table that a mount loads, and the entries that the driver finds in it or behind it. -/
namespace Gr8os.FsFat

def pageBytes : BitVec 32 := 4096

/-- A table in memory, and the offset on the volume that it was read from. -/
structure LoadedFat where
  vcb : Fsfatvcb
  offset : BitVec 32

/-- The buffer for the table holds what was read, and behind it is what the heap has there. -/
def fatBuffer (heap : BitVec 32 → BitVec 8) (size : BitVec 32) (bytes : Nat → BitVec 8) (n : BitVec 32) : BitVec 8 :=
  if n < size then bytes n.toNat else heap n

/-- The part of FsFatCreateVcb that reads the table: the first one, or the second one where that cannot be read. A result
of none is a mount that fails. -/
def loadFat (allocated : Bool) (rawFileObject : BitVec 32 → BitVec 32 → Option (Nat → BitVec 8)) (fh : FsfatBpb)
    (heap : BitVec 32 → BitVec 8) : Option LoadedFat :=
  (fsFatCreateVcb fh).bind fun r =>
    let sectorSize := fh.sectorSize.setWidth 32
    let fullFatSize := fh.fatSz * sectorSize
    let sizeOfFatLoaded := if pageBytes * 3 < fullFatSize then pageBytes * 3 else fullFatSize
    let table := fun (offset : BitVec 32) (bytes : Nat → BitVec 8) =>
      { vcb := {
          clusterSize := r.clusterSize, rawFileObject, fatHeader := fh.toFsfatHeader,
          cluster2StartSector := r.cluster2StartSector, fat := fatBuffer heap sizeOfFatLoaded bytes, sizeOfFatLoaded,
          fatType := r.fatType }
        offset : LoadedFat }
    if !allocated then none
    else
      match rawFileObject (r.fat1StartSector * sectorSize) sizeOfFatLoaded with
      | some bytes => some (table (r.fat1StartSector * sectorSize) bytes)
      | none =>
        (rawFileObject (r.fat2StartSector * sectorSize) sizeOfFatLoaded).map (table (r.fat2StartSector * sectorSize))

/-- What a read of the volume gives is what the volume has there. -/
def ReadsVolume (rawFileObject : BitVec 32 → BitVec 32 → Option (Nat → BitVec 8)) (disk : Nat → BitVec 8) : Prop :=
  ∀ offset size bytes, rawFileObject offset size = some bytes → ∀ i < size.toNat, bytes i = disk (offset.toNat + i)

/-- The entry of a table that begins with the first of the given bytes. -/
def tableEntry (type : FatType) (table : Nat → BitVec 8) (index : Nat) : BitVec 32 :=
  BitVec.ofNat 32 (Nat.ofBits fun j : Fin type.width =>
    (table ((type.entryBits * index + j) / 8)).getLsbD ((type.entryBits * index + j) % 8))

section entries

variable {vcb : Fsfatvcb} {index : BitVec 32} {table : Nat → BitVec 8}

/-- Where the memory holds the bytes of the entry, the entry is the number that it holds. -/
theorem link_tableEntry (holds : ∀ n, n ≤ (vcb.fatType.entryBits * index.toNat + vcb.fatType.entryBits - 1) / 8 →
    vcb.fat (BitVec.ofNat 32 n) = table n) : vcb.link index = tableEntry vcb.fatType table index.toNat := by
  have narrow : vcb.fatType.width ≤ vcb.fatType.entryBits := by cases vcb.fatType <;> decide
  unfold Fsfatvcb.link tableEntry
  congr 2
  funext j
  have within := j.isLt
  rw [Fsfatvcb.fatBit, holds]
  exact Nat.div_le_div_right (by omega)

theorem entryStart_fat12 (type : vcb.fatType = .fat12) (inRange : index.toNat < 4096) :
    (vcb.entryStart index).toNat = index.toNat * 3 / 2 := by
  simp only [Fsfatvcb.entryStart, type]
  rcases Nat.mod_two_eq_zero_or_one index.toNat with even | odd
  · have isEven : index % 2 = 0 := by bv_omega
    have triple : (index * 3).toNat = index.toNat * 3 := by bv_omega
    rw [if_pos isEven, BitVec.toNat_udiv, triple]
    rfl
  · have parity : (index % 2).toNat = index.toNat % 2 := by simp
    have isOdd : ¬index % 2 = 0 := by
      intro zero
      rw [zero, odd] at parity
      exact absurd parity (by decide)
    have triple : ((index + 1) * 3).toNat = (index.toNat + 1) * 3 := by bv_omega
    have half : ((index + 1) * 3 / 2).toNat = (index.toNat + 1) * 3 / 2 := by
      rw [BitVec.toNat_udiv, triple]
      rfl
    rw [if_neg isOdd]
    bv_omega

/-- How much of the table is loaded matters for nothing but whether a 12-bit entry is fetched. -/
theorem readEntry_size (checked : Bool) {size : BitVec 32} (here : ¬vcb.Fetched index)
    (there : ¬Fsfatvcb.Fetched { vcb with sizeOfFatLoaded := size } index) :
    fsFatReadFatEntry checked { vcb with sizeOfFatLoaded := size } index = fsFatReadFatEntry checked vcb index := by
  rcases vcb.fatType.cases_eq with type | type | type
  · have first : ¬vcb.sizeOfFatLoaded ≤ vcb.entryStart index := fun behind => here ⟨type, behind⟩
    have second : ¬size ≤ vcb.entryStart index := fun behind => there ⟨type, behind⟩
    have read : readFat12 { vcb with sizeOfFatLoaded := size } (vcb.entryStart index) =
        readFat12 vcb (vcb.entryStart index) := by
      rw [readFat12, readFat12, if_neg first, if_neg second]
      rfl
    rw [readEntry_fat12 checked type, ← read]
    exact readEntry_fat12 checked type
  · rw [readEntry_word checked type]
    exact readEntry_word checked type
  · rw [readEntry_long checked type]
    exact readEntry_long checked type

/-- An entry that is not fetched is taken from memory, wherever it ends. -/
theorem readEntry_started (checked : Bool) (inRange : index.toNat < 2 ^ vcb.fatType.width)
    (started : ¬vcb.Fetched index) : fsFatReadFatEntry checked vcb index = some (vcb.link index) := by
  have all : (-1 : BitVec 32).toNat = 4294967295 := by decide
  have whole := @fsFatReadFatEntry_link checked { vcb with sizeOfFatLoaded := -1 } index inRange fun type => by
    rw [show vcb.fatType = .fat12 from type] at inRange
    change index.toNat < 4096 at inRange
    simp only [Fsfatvcb.Loaded, show vcb.fatType = .fat12 from type, FatType.entryBits, all]
    omega
  have there : ¬Fsfatvcb.Fetched { vcb with sizeOfFatLoaded := -1 } index := by
    rintro ⟨type, behind⟩
    rw [show vcb.fatType = .fat12 from type] at inRange
    have start := @entryStart_fat12 vcb index type inRange
    have far : (-1 : BitVec 32).toNat ≤ (vcb.entryStart index).toNat := behind
    change index.toNat < 4096 at inRange
    rw [all, start] at far
    omega
  rw [← readEntry_size checked started there, whole]
  rfl

/-- An entry that ends behind the loaded part depends on what the memory holds there. -/
theorem link_behind (inRange : index.toNat < 2 ^ vcb.fatType.width) (behind : ¬vcb.Loaded index) :
    ∃ fat : BitVec 32 → BitVec 8, (∀ n < vcb.sizeOfFatLoaded, fat n = vcb.fat n) ∧
      Fsfatvcb.link { vcb with fat := fat } index ≠ vcb.link index := by
  have bound := width_le vcb.fatType
  have far := Nat.not_lt.mp behind
  have lastBit : ∃ j < vcb.fatType.width, vcb.fatType.entryBits * index.toNat + j =
      8 * ((vcb.fatType.entryBits * index.toNat + vcb.fatType.entryBits - 1) / 8) + 0 := by
    refine ⟨8 * ((vcb.fatType.entryBits * index.toNat + vcb.fatType.entryBits - 1) / 8) -
      vcb.fatType.entryBits * index.toNat, ?_, ?_⟩
    all_goals
      cases vcb.fatType <;> simp only [FatType.width, FatType.entryBits] <;> omega
  have small : (vcb.fatType.entryBits * index.toNat + vcb.fatType.entryBits - 1) / 8 < 4294967296 := by
    cases type : vcb.fatType <;> rw [type] at inRange <;> simp only [FatType.width, FatType.entryBits] at * <;> omega
  generalize (vcb.fatType.entryBits * index.toNat + vcb.fatType.entryBits - 1) / 8 = last at *
  obtain ⟨j, inside, place⟩ := lastBit
  refine ⟨fun n => if n = BitVec.ofNat 32 last then ~~~vcb.fat n else vcb.fat n, ?_, ?_⟩
  · intro n less
    have other : n ≠ BitVec.ofNat 32 last := by
      intro same
      rw [same, BitVec.lt_def, BitVec.toNat_ofNat] at less
      omega
    exact if_neg other
  · intro same
    have bit := congrArg (·.getLsbD j) same
    rw [Fsfatvcb.getLsbD_link, Fsfatvcb.getLsbD_link] at bit
    rw [decide_eq_true inside, Bool.true_and, Bool.true_and, place, Fsfatvcb.fatBit_byte _ _ _ (by decide),
      Fsfatvcb.fatBit_byte _ _ _ (by decide)] at bit
    simp at bit

end entries

section disk

variable {vcb : Fsfatvcb} {index : BitVec 32} {disk : Nat → BitVec 8}

theorem tableEntry_lt (type : FatType) (table : Nat → BitVec 8) (c : Nat) :
    (tableEntry type table c).toNat < 2 ^ type.width :=
  Nat.lt_of_le_of_lt (Nat.mod_le _ _) (Nat.ofBits_lt_two_pow _)

/-- The driver's block with the volume itself for its table. -/
def onVolume (vcb : Fsfatvcb) (disk : Nat → BitVec 8) : Fsfatvcb :=
  { vcb with fat := fun n => disk n.toNat, sizeOfFatLoaded := -1 }

theorem readEntry_onVolume (disk : Nat → BitVec 8) (checked : Bool) (type : vcb.fatType = .fat12) (inRange : index.toNat < 4096) :
    fsFatReadFatEntry checked (onVolume vcb disk) index = some (tableEntry .fat12 disk index.toNat) ∧
      fsFatReadFatEntry checked (onVolume vcb disk) index = fat12Result checked index
        (some (disk (index.toNat * 3 / 2 + 1) ++ disk (index.toNat * 3 / 2))) := by
  have start := @entryStart_fat12 (onVolume vcb disk) index type inRange
  have next : ((onVolume vcb disk).entryStart index + 1).toNat = index.toNat * 3 / 2 + 1 := by bv_omega
  have size : (-1 : BitVec 32).toNat = 4294967295 := by decide
  have unfetched : ¬(onVolume vcb disk).sizeOfFatLoaded ≤ (onVolume vcb disk).entryStart index := by
    intro behind
    have far : (-1 : BitVec 32).toNat ≤ ((onVolume vcb disk).entryStart index).toNat := behind
    omega
  have width : (onVolume vcb disk).fatType = .fat12 := type
  constructor
  · rw [readEntry_started checked (by rw [width]; exact inRange) fun fetched => unfetched fetched.2, ← width]
    congr 1
    apply link_tableEntry
    intro n low
    rw [width] at low
    simp only [FatType.entryBits] at low
    have small : n < 4294967296 := by omega
    simp only [onVolume, BitVec.toNat_ofNat, Nat.mod_eq_of_lt small]
  · have word : (onVolume vcb disk).fatUshort ((onVolume vcb disk).entryStart index) =
        disk (index.toNat * 3 / 2 + 1) ++ disk (index.toNat * 3 / 2) := by
      rw [← next, ← start]
      rfl
    rw [readEntry_fat12 checked width, readFat12, if_neg unfetched, word]

/-- A 12-bit entry that is fetched is read at its offset from the start of the volume. -/
theorem readEntry_fetched (checked : Bool) (volume : ReadsVolume vcb.rawFileObject disk) (inRange : index.toNat < 4096)
    (fetched : vcb.Fetched index) {bytes : Nat → BitVec 8}
    (read : vcb.rawFileObject (vcb.entryStart index) 2 = some bytes) :
    fsFatReadFatEntry checked vcb index = some (tableEntry .fat12 disk index.toNat) := by
  obtain ⟨entry, word⟩ := readEntry_onVolume disk checked fetched.1 inRange
  have first := volume _ _ _ read 0 (by decide)
  have second := volume _ _ _ read 1 (by decide)
  rw [entryStart_fat12 fetched.1 inRange] at first second
  rw [Nat.add_zero] at first
  rw [← entry, word, readEntry_fat12 checked fetched.1, readFat12, if_pos fetched.2, read, Option.map_some, first,
    second]

theorem readEntry_unread (checked : Bool) (fetched : vcb.Fetched index)
    (unread : vcb.rawFileObject (vcb.entryStart index) 2 = none) (table : Nat → BitVec 8) :
    fsFatReadFatEntry checked vcb index ≠ some (tableEntry .fat12 table index.toNat) := by
  rw [readEntry_fat12 checked fetched.1, readFat12, if_pos fetched.2, unread]
  have small := tableEntry_lt .fat12 table index.toNat
  intro same
  cases checked with
  | true => cases same
  | false =>
    have word : (-1 : BitVec 32) = tableEntry .fat12 table index.toNat := Option.some.inj same
    rw [← word] at small
    exact absurd small (by decide)

end disk

section mount

variable {allocated : Bool} {rawFileObject : BitVec 32 → BitVec 32 → Option (Nat → BitVec 8)} {fh : FsfatBpb}
  {heap : BitVec 32 → BitVec 8} {t : LoadedFat} {disk : Nat → BitVec 8} {index : BitVec 32}

/-- The loaded part is what the volume has from the table's offset on. -/
theorem loadFat_disk (volume : ReadsVolume rawFileObject disk)
    (mounted : loadFat allocated rawFileObject fh heap = some t) :
    t.vcb.rawFileObject = rawFileObject ∧
      ∀ n < t.vcb.sizeOfFatLoaded, t.vcb.fat n = disk (t.offset.toNat + n.toNat) := by
  obtain ⟨r, _, read⟩ := Option.bind_eq_some_iff.mp mounted
  dsimp only at read
  split at read
  · cases read
  · split at read
    · next bytes first =>
      cases read
      refine ⟨rfl, fun n less => ?_⟩
      exact (if_pos less).trans (volume _ _ _ first _ less)
    · obtain ⟨bytes, second, rfl⟩ := Option.map_eq_some_iff.mp read
      refine ⟨rfl, fun n less => ?_⟩
      exact (if_pos less).trans (volume _ _ _ second _ less)

/-- The driver returns the entry that the table has on the volume, whatever the memory behind the loaded part holds. -/
def AgreesWithDisk (checked : Bool) (disk : Nat → BitVec 8) (t : LoadedFat) (index : BitVec 32) : Prop :=
  ∀ fat : BitVec 32 → BitVec 8, (∀ n < t.vcb.sizeOfFatLoaded, fat n = t.vcb.fat n) →
    fsFatReadFatEntry checked { t.vcb with fat := fat } index =
      some (tableEntry t.vcb.fatType (fun n => disk (t.offset.toNat + n)) index.toNat)

/-- The entry is fetched from the volume, and there are the same bits at its offset from the start of the volume as at its
offset from the start of the table. -/
def FetchedAlike (disk : Nat → BitVec 8) (t : LoadedFat) (index : BitVec 32) : Prop :=
  t.vcb.Fetched index ∧ t.vcb.rawFileObject (t.vcb.entryStart index) 2 ≠ none ∧
    tableEntry .fat12 disk index.toNat = tableEntry .fat12 (fun n => disk (t.offset.toNat + n)) index.toNat

theorem fetched_agrees_iff (checked : Bool) (volume : ReadsVolume t.vcb.rawFileObject disk)
    (inRange : index.toNat < 2 ^ t.vcb.fatType.width) (fetched : t.vcb.Fetched index) :
    AgreesWithDisk checked disk t index ↔ FetchedAlike disk t index := by
  have type := fetched.1
  rw [type] at inRange
  unfold AgreesWithDisk
  rw [type]
  cases read : t.vcb.rawFileObject (t.vcb.entryStart index) 2 with
  | none =>
    constructor
    · intro agrees
      exact absurd (agrees t.vcb.fat fun _ _ => rfl) (readEntry_unread checked fetched read _)
    · rintro ⟨_, some, _⟩
      exact absurd read some
  | some buffer =>
    have found (fat : BitVec 32 → BitVec 8) : fsFatReadFatEntry checked { t.vcb with fat := fat } index =
        some (tableEntry .fat12 disk index.toNat) :=
      readEntry_fetched checked volume inRange fetched read
    constructor
    · intro agrees
      have same := agrees t.vcb.fat fun _ _ => rfl
      rw [found] at same
      exact ⟨fetched, by rw [read]; exact Option.some_ne_none _, Option.some.inj same⟩
    · rintro ⟨_, _, alike⟩ fat _
      rw [found, alike]

theorem started_agrees_iff (checked : Bool) (inRange : index.toNat < 2 ^ t.vcb.fatType.width)
    (bytes : ∀ n < t.vcb.sizeOfFatLoaded, t.vcb.fat n = disk (t.offset.toNat + n.toNat)) (started : ¬t.vcb.Fetched index) :
    AgreesWithDisk checked disk t index ↔ t.vcb.Loaded index := by
  have taken (fat : BitVec 32 → BitVec 8) : fsFatReadFatEntry checked { t.vcb with fat := fat } index =
      some (Fsfatvcb.link { t.vcb with fat := fat } index) :=
    readEntry_started checked inRange started
  constructor
  · intro agrees
    by_contra behind
    obtain ⟨fat, same, differs⟩ := link_behind inRange behind
    have first := agrees t.vcb.fat fun _ _ => rfl
    have second := agrees fat same
    rw [taken] at first second
    exact differs (Option.some.inj (second.trans first.symm))
  · intro loaded fat same
    rw [taken]
    congr 1
    apply link_tableEntry
    intro n low
    have inside : n < t.vcb.sizeOfFatLoaded.toNat := Nat.lt_of_le_of_lt low loaded
    have small : (BitVec.ofNat 32 n).toNat = n := by
      rw [BitVec.toNat_ofNat]
      exact Nat.mod_eq_of_lt (by omega)
    have less : BitVec.ofNat 32 n < t.vcb.sizeOfFatLoaded := by
      rw [BitVec.lt_def, small]
      exact inside
    exact (same _ less).trans ((bytes _ less).trans (by rw [small]))

theorem fetched_unloaded (inRange : index.toNat < 2 ^ t.vcb.fatType.width) (fetched : t.vcb.Fetched index) :
    ¬t.vcb.Loaded index := by
  have type := fetched.1
  rw [type] at inRange
  have start := entryStart_fat12 type inRange
  have behind := BitVec.le_def.mp fetched.2
  simp only [Fsfatvcb.Loaded, type, FatType.entryBits]
  omega

/-- An entry is that of the volume where it lies in the loaded part. -/
theorem partialFat_agrees_iff (checked : Bool) (volume : ReadsVolume rawFileObject disk)
    (mounted : loadFat allocated rawFileObject fh heap = some t) (inRange : index.toNat < 2 ^ t.vcb.fatType.width) :
    AgreesWithDisk checked disk t index ↔ t.vcb.Loaded index ∨ FetchedAlike disk t index := by
  obtain ⟨raw, bytes⟩ := loadFat_disk volume mounted
  rw [← raw] at volume
  by_cases fetched : t.vcb.Fetched index
  · rw [fetched_agrees_iff checked volume inRange fetched]
    exact (or_iff_right (fetched_unloaded inRange fetched)).symm
  · rw [started_agrees_iff checked inRange bytes fetched]
    exact (or_iff_left fun alike => fetched alike.1).symm

/-- In a table of less than 4 GB, an entry is in the loaded part where it lies in the first three pages of the table, and a
12-bit one does. -/
theorem loaded_iff_prefix (mounted : loadFat allocated rawFileObject fh heap = some t)
    (short : fh.fatSz.toNat * fh.sectorSize.toNat < 4294967296)
    (stored : (t.vcb.fatType.entryBits * index.toNat + t.vcb.fatType.entryBits - 1) / 8 <
      fh.fatSz.toNat * fh.sectorSize.toNat) (inRange : index.toNat < 2 ^ t.vcb.fatType.width) :
    t.vcb.Loaded index ↔ t.vcb.fatType = .fat12 ∨ t.vcb.fatType = .fat16 ∧ index.toNat < 6144 ∨
      t.vcb.fatType = .fat32 ∧ index.toNat < 3072 := by
  have full : (fh.fatSz * fh.sectorSize.setWidth 32).toNat = fh.fatSz.toNat * fh.sectorSize.toNat := by
    rw [BitVec.toNat_mul, sectorSize_toNat]
    exact Nat.mod_eq_of_lt short
  have size : t.vcb.sizeOfFatLoaded =
      if pageBytes * 3 < fh.fatSz * fh.sectorSize.setWidth 32 then pageBytes * 3 else fh.fatSz * fh.sectorSize.setWidth 32 := by
    obtain ⟨r, _, read⟩ := Option.bind_eq_some_iff.mp mounted
    dsimp only at read
    split at read
    · cases read
    · split at read
      · cases read
        rfl
      · obtain ⟨_, _, rfl⟩ := Option.map_eq_some_iff.mp read
        rfl
  have pages : (pageBytes * 3).toNat = 12288 := by decide
  have loaded : t.vcb.sizeOfFatLoaded.toNat = min 12288 (fh.fatSz.toNat * fh.sectorSize.toNat) := by
    rw [size]
    split
    · next more =>
      rw [BitVec.lt_def, pages, full] at more
      omega
    · next less =>
      rw [BitVec.lt_def, pages, full] at less
      omega
  unfold Fsfatvcb.Loaded
  rw [loaded]
  generalize fh.fatSz.toNat * fh.sectorSize.toNat = bytes at *
  rcases t.vcb.fatType.cases_eq with type | type | type <;> rw [type] at stored inRange ⊢ <;>
    simp only [FatType.entryBits, FatType.width, reduceCtorEq, true_and, false_and, or_false, false_or,
      iff_true] at * <;> omega

end mount

/-- A disk with a 16-bit table of 32 sectors, all of whose bytes are zero. -/
def largeFatBpb : FsfatBpb where
  sectors := 8287
  fatSectors := 32

def zeroVolume (_ _ : BitVec 32) : Option (Nat → BitVec 8) := some fun _ => 0

theorem zeroVolume_reads : ReadsVolume zeroVolume fun _ => 0 := by
  intro offset size bytes read i _
  rw [← Option.some.inj read]

def largeFat : LoadedFat where
  vcb := {
    rawFileObject := zeroVolume, cluster2StartSector := 97, fat := fatBuffer (fun _ => 0xFF) 12288 fun _ => 0,
    sizeOfFatLoaded := 12288, fatType := .fat16 }
  offset := 512

theorem loadFat_large : loadFat true zeroVolume largeFatBpb (fun _ => 0xFF) = some largeFat := by rfl

theorem cluster2_agrees : AgreesWithDisk true (fun _ => 0) largeFat 2 :=
  (partialFat_agrees_iff true zeroVolume_reads loadFat_large (by decide)).mpr (.inl (by decide))

/-- The entry of cluster 6144 lies behind the three pages that are loaded. -/
theorem cluster6144_differs : loadFat true zeroVolume largeFatBpb (fun _ => 0xFF) = some largeFat ∧
    ReadsVolume zeroVolume (fun _ => 0) ∧ 6144 < largeFatBpb.countOfClusters.toNat + 2 ∧
    fsFatReadFatEntry true largeFat.vcb 6144 = some 0xFFFF ∧ ¬AgreesWithDisk true (fun _ => 0) largeFat 6144 := by
  refine ⟨loadFat_large, zeroVolume_reads, by decide, by decide, fun agrees => ?_⟩
  have same := agrees largeFat.vcb.fat fun _ _ => rfl
  have read : fsFatReadFatEntry true largeFat.vcb 6144 = some 0xFFFF := by decide
  have entry : tableEntry .fat16 (fun _ => 0) 6144 = 0 := by decide
  exact absurd (read.symm.trans (same.trans (congrArg some entry))) (by decide)

end Gr8os.FsFat
