import Gr8os.FsFat.Fat

/-! The 12-bit table, two entries in each three bytes, as the driver and the boot loader take it apart, and the bytes of the
loaded part that the driver looks at. -/
namespace Gr8os.FsFat

/-- Two entries fill three bytes: the low eight bits of the first one, its high four bits under the low four bits of the
second one, the high eight bits of the second one. -/
def packed (entries : Nat → BitVec 12) (n : Nat) : BitVec 8 :=
  let even := entries (2 * (n / 3))
  let odd := entries (2 * (n / 3) + 1)
  match n % 3 with
  | 0 => even.setWidth 8
  | 1 => odd.setWidth 4 ++ (even >>> 8).setWidth 4
  | _ => (odd >>> 4).setWidth 8

theorem getLsbD_packed (entries : Nat → BitVec 12) (n j : Nat) (inside : j < 8) :
    (packed entries n).getLsbD j = (entries ((8 * n + j) / 12)).getLsbD ((8 * n + j) % 12) := by
  have split := Nat.div_add_mod n 3
  unfold packed
  generalize n / 3 = q at *
  have third : n % 3 = 0 ∨ n % 3 = 1 ∨ n % 3 = 2 := by omega
  rcases third with first | second | last
  · have entry : (8 * n + j) / 12 = 2 * q := by omega
    have place : (8 * n + j) % 12 = j := by omega
    simp only [first, entry, place]
    rw [BitVec.getLsbD_setWidth, decide_eq_true inside, Bool.true_and]
  · simp only [second]
    rw [BitVec.getLsbD_append]
    rcases Nat.lt_or_ge j 4 with low | high
    · have entry : (8 * n + j) / 12 = 2 * q := by omega
      have place : (8 * n + j) % 12 = 8 + j := by omega
      rw [if_pos low, entry, place, BitVec.getLsbD_setWidth, BitVec.getLsbD_ushiftRight, decide_eq_true low,
        Bool.true_and]
    · have entry : (8 * n + j) / 12 = 2 * q + 1 := by omega
      have place : (8 * n + j) % 12 = j - 4 := by omega
      rw [if_neg (Nat.not_lt.mpr high), entry, place, BitVec.getLsbD_setWidth, decide_eq_true (by omega),
        Bool.true_and]
  · have entry : (8 * n + j) / 12 = 2 * q + 1 := by omega
    have place : (8 * n + j) % 12 = 4 + j := by omega
    simp only [last, entry, place]
    rw [BitVec.getLsbD_setWidth, BitVec.getLsbD_ushiftRight, decide_eq_true inside, Bool.true_and]

/-- The processor's unsigned product of AX and CX, as DX and AX. -/
def mul (ax cx : BitVec 16) : BitVec 16 × BitVec 16 :=
  let product := ax.setWidth 32 * cx.setWidth 32
  ((product >>> 16).setWidth 16, product.setWidth 16)

/-- A word of the segment that the boot loader has the table in. -/
def segmentWord (fat : BitVec 16 → BitVec 8) (si : BitVec 16) : BitVec 16 := fat (si + 1) ++ fat si

/-- The boot loader's routine: CX is the number of a cluster, and AX comes back with the next one. -/
def getFatCluster (fat : BitVec 16 → BitVec 8) (cx : BitVec 16) : BitVec 16 :=
  if cx &&& 1 = 0 then
    let (_, ax) := mul cx 3
    let si := ax >>> 1
    segmentWord fat si &&& 0xFFF
  else
    let (_, ax) := mul (cx + 1) 3
    let si := (ax >>> 1) - 1 - 1
    segmentWord fat si >>> 4

section values

variable {entries : Nat → BitVec 12} {vcb : Fsfatvcb} {c : BitVec 32}

/-- Where the loaded part holds the entries packed, the bits of a loaded entry are those of its number. -/
theorem link_packed (type : vcb.fatType = .fat12) (loaded : vcb.Loaded c)
    (table : ∀ n < vcb.sizeOfFatLoaded.toNat, vcb.fat (BitVec.ofNat 32 n) = packed entries n) :
    vcb.link c = (entries c.toNat).setWidth 32 := by
  simp only [Fsfatvcb.Loaded, type, FatType.entryBits] at loaded
  apply BitVec.eq_of_getLsbD_eq
  intro j word
  rw [vcb.getLsbD_link, BitVec.getLsbD_setWidth, decide_eq_true word, Bool.true_and]
  simp only [type, FatType.width, FatType.entryBits]
  rcases Nat.lt_or_ge j 12 with low | high
  · have entry : (8 * ((12 * c.toNat + j) / 8) + (12 * c.toNat + j) % 8) / 12 = c.toNat := by omega
    have place : (8 * ((12 * c.toNat + j) / 8) + (12 * c.toNat + j) % 8) % 12 = j := by omega
    rw [decide_eq_true low, Bool.true_and, Fsfatvcb.fatBit, table _ (by omega),
      getLsbD_packed entries _ _ (Nat.mod_lt _ (by decide)), entry, place]
  · rw [decide_eq_false (Nat.not_lt.mpr high), Bool.false_and, BitVec.getLsbD_of_ge _ _ high]

theorem getLsbD_segmentWord (fat : BitVec 16 → BitVec 8) (si : BitVec 16) (j : Nat) :
    (segmentWord fat si).getLsbD j =
      if j < 8 then (fat si).getLsbD j else (fat (si + 1)).getLsbD (j - 8) := by
  rw [segmentWord, BitVec.getLsbD_append]

/-- The bits of a word of the segment, where its bytes hold the entries packed. -/
theorem segmentWord_packed {fat : BitVec 16 → BitVec 8} {si : BitVec 16} {n : Nat} (place : si.toNat = n)
    (first : fat (BitVec.ofNat 16 n) = packed entries n)
    (second : fat (BitVec.ofNat 16 (n + 1)) = packed entries (n + 1)) {j : Nat} (inside : j < 16) :
    (segmentWord fat si).getLsbD j = (entries ((8 * n + j) / 12)).getLsbD ((8 * n + j) % 12) := by
  have here : BitVec.ofNat 16 n = si := by rw [← place, BitVec.ofNat_toNat, BitVec.setWidth_eq]
  have next : BitVec.ofNat 16 (n + 1) = si + 1 := by
    rw [BitVec.ofNat_add, here]
    rfl
  rw [here] at first
  rw [next] at second
  rw [getLsbD_segmentWord]
  rcases Nat.lt_or_ge j 8 with low | high
  · rw [if_pos low, first, getLsbD_packed entries _ _ low]
  · have same : 8 * (n + 1) + (j - 8) = 8 * n + j := by omega
    rw [if_neg (Nat.not_lt.mpr high), second, getLsbD_packed entries _ _ (by omega), same]

/-- The loader takes an entry out of two bytes that hold it. -/
theorem getFatCluster_packed {fat : BitVec 16 → BitVec 8} {cx : BitVec 16} (inRange : cx.toNat < 4096)
    (first : fat (BitVec.ofNat 16 (cx.toNat * 3 / 2)) = packed entries (cx.toNat * 3 / 2))
    (second : fat (BitVec.ofNat 16 (cx.toNat * 3 / 2 + 1)) = packed entries (cx.toNat * 3 / 2 + 1)) :
    getFatCluster fat cx = (entries cx.toNat).setWidth 16 := by
  have low : (cx &&& 1).toNat = cx.toNat % 2 := by
    rw [BitVec.toNat_and]
    exact Nat.and_one_is_mod _
  apply BitVec.eq_of_getLsbD_eq
  intro j word
  rw [BitVec.getLsbD_setWidth, decide_eq_true word, Bool.true_and]
  rcases Nat.mod_two_eq_zero_or_one cx.toNat with even | odd
  · have isEven : cx &&& 1 = 0 := BitVec.eq_of_toNat_eq (low.trans even)
    have product : (mul cx 3).2.toNat = cx.toNat * 3 := by
      simp only [mul, BitVec.toNat_setWidth, BitVec.toNat_mul]
      change cx.toNat % 4294967296 * 3 % 4294967296 % 65536 = _
      omega
    have place : ((mul cx 3).2 >>> 1).toNat = cx.toNat * 3 / 2 := by
      rw [BitVec.toNat_ushiftRight, product, Nat.shiftRight_eq_div_pow]
    have mask : BitVec.getLsbD (0xFFF : BitVec 16) j = decide (j < 12) := getLsbD_lowMask 16 12 j (by decide)
    rw [getFatCluster, if_pos isEven, BitVec.getLsbD_and, mask, segmentWord_packed place first second word]
    rcases Nat.lt_or_ge j 12 with inside | above
    · have entry : (8 * (cx.toNat * 3 / 2) + j) / 12 = cx.toNat := by omega
      have bit : (8 * (cx.toNat * 3 / 2) + j) % 12 = j := by omega
      rw [decide_eq_true inside, Bool.and_true, entry, bit]
    · rw [decide_eq_false (Nat.not_lt.mpr above), Bool.and_false, BitVec.getLsbD_of_ge _ _ above]
  · have isOdd : ¬cx &&& 1 = 0 := by
      intro zero
      rw [zero, odd] at low
      exact absurd low (by decide)
    have product : (mul (cx + 1) 3).2.toNat = (cx.toNat + 1) * 3 := by
      simp only [mul, BitVec.toNat_setWidth, BitVec.toNat_mul, BitVec.toNat_add]
      change (cx.toNat + 1) % 65536 % 4294967296 * 3 % 4294967296 % 65536 = _
      omega
    have half : ((mul (cx + 1) 3).2 >>> 1).toNat = (cx.toNat + 1) * 3 / 2 := by
      rw [BitVec.toNat_ushiftRight, product, Nat.shiftRight_eq_div_pow]
    have place : ((mul (cx + 1) 3).2 >>> 1 - 1 - 1).toNat = cx.toNat * 3 / 2 := by bv_omega
    rw [getFatCluster, if_neg isOdd, BitVec.getLsbD_ushiftRight]
    rcases Nat.lt_or_ge j 12 with inside | above
    · have entry : (8 * (cx.toNat * 3 / 2) + (4 + j)) / 12 = cx.toNat := by omega
      have bit : (8 * (cx.toNat * 3 / 2) + (4 + j)) % 12 = j := by omega
      rw [segmentWord_packed place first second (by omega), entry, bit]
    · rw [BitVec.getLsbD_of_ge _ _ (by omega), BitVec.getLsbD_of_ge _ _ above]

end values

/-! Which bytes of the table a call looks at. -/

namespace Fsfatvcb

variable (vcb : Fsfatvcb) (index : BitVec 32)

/-- Where the driver takes the entry to begin. -/
def entryStart : BitVec 32 :=
  match vcb.fatType with
  | .fat12 => if index % 2 = 0 then index * 3 / 2 else (index + 1) * 3 / 2 - 2
  | .fat16 => index * 2
  | .fat32 => index * 4

/-- Only a 12-bit entry is ever read from the disk. -/
def Fetched : Prop := vcb.fatType = .fat12 ∧ vcb.sizeOfFatLoaded ≤ vcb.entryStart index

instance : Decidable (vcb.Fetched index) := inferInstanceAs (Decidable (_ ∧ _))

/-- The bytes of the loaded table that a call looks at. -/
def tableReads : List (BitVec 32) :=
  let n := vcb.entryStart index
  if vcb.Fetched index then []
  else if vcb.fatType = .fat32 then [n, n + 1, n + 2, n + 2 + 1]
  else [n, n + 1]

end Fsfatvcb

section reads

variable {vcb : Fsfatvcb} {index : BitVec 32}

theorem FatType.cases_eq (t : FatType) : t = .fat12 ∨ t = .fat16 ∨ t = .fat32 := by cases t <;> simp

/-- What a 12-bit entry is made of its two bytes, if they could be read. -/
def fat12Result (checked : Bool) (index : BitVec 32) : Option (BitVec 16) → Option (BitVec 32)
  | some buffer => some ((if index % 2 = 0 then buffer &&& 0xFFF else buffer >>> 4).setWidth 32)
  | none => if checked then none else some (-1)

theorem readEntry_fat12 (checked : Bool) (type : vcb.fatType = .fat12) :
    fsFatReadFatEntry checked vcb index = fat12Result checked index (readFat12 vcb (vcb.entryStart index)) := by
  unfold fsFatReadFatEntry Fsfatvcb.entryStart fat12Result
  rw [type]
  by_cases even : index % 2 = 0
  · cases read : readFat12 vcb (index * 3 / 2) <;> simp only [if_pos even, read]
  · cases read : readFat12 vcb ((index + 1) * 3 / 2 - 2) <;> simp only [if_neg even, read]

theorem readEntry_word (checked : Bool) (type : vcb.fatType = .fat16) :
    fsFatReadFatEntry checked vcb index = some ((vcb.fatUshort (index * 2)).setWidth 32) := by
  simp only [fsFatReadFatEntry, type]

theorem readEntry_long (checked : Bool) (type : vcb.fatType = .fat32) :
    fsFatReadFatEntry checked vcb index = some (vcb.fatUlong (index * 4) &&& 0x0FFFFFFF) := by
  simp only [fsFatReadFatEntry, type]

theorem fsFatReadFatEntry_reads (checked : Bool) {fat : BitVec 32 → BitVec 8}
    (same : ∀ n ∈ vcb.tableReads index, fat n = vcb.fat n) :
    fsFatReadFatEntry checked { vcb with fat := fat } index = fsFatReadFatEntry checked vcb index := by
  have word (n : BitVec 32) (first : fat n = vcb.fat n) (second : fat (n + 1) = vcb.fat (n + 1)) :
      Fsfatvcb.fatUshort { vcb with fat := fat } n = vcb.fatUshort n := by
    simp only [Fsfatvcb.fatUshort, first, second]
  rcases vcb.fatType.cases_eq with type | type | type
  · have read : readFat12 { vcb with fat := fat } (vcb.entryStart index) = readFat12 vcb (vcb.entryStart index) := by
      unfold readFat12
      by_cases fetched : vcb.sizeOfFatLoaded ≤ vcb.entryStart index
      · rw [if_pos fetched, if_pos fetched]
      · have listed : vcb.tableReads index = [vcb.entryStart index, vcb.entryStart index + 1] := by
          have here : ¬vcb.Fetched index := fun f => fetched f.2
          simp only [Fsfatvcb.tableReads, if_neg here, type]
          rfl
        rw [if_neg fetched, if_neg fetched, word _ (same _ (by simp [listed])) (same _ (by simp [listed]))]
    rw [readEntry_fat12 checked type, ← read]
    exact readEntry_fat12 checked type
  · have listed : vcb.tableReads index = [index * 2, index * 2 + 1] := by
      simp [Fsfatvcb.tableReads, Fsfatvcb.Fetched, Fsfatvcb.entryStart, type]
    rw [readEntry_word checked type, ← word _ (same _ (by simp [listed])) (same _ (by simp [listed]))]
    exact readEntry_word checked type
  · have listed : vcb.tableReads index = [index * 4, index * 4 + 1, index * 4 + 2, index * 4 + 2 + 1] := by
      simp [Fsfatvcb.tableReads, Fsfatvcb.Fetched, Fsfatvcb.entryStart, type]
    rw [readEntry_long checked type, Fsfatvcb.fatUlong, ← word _ (same _ (by simp [listed])) (same _ (by simp [listed])),
      ← word _ (same _ (by simp [listed])) (same _ (by simp [listed]))]
    exact readEntry_long checked type

end reads

/-- The entry begins with the last byte that is loaded, or it is one of a wider table and ends behind the loaded part. -/
def Fsfatvcb.Overrun (vcb : Fsfatvcb) (index : BitVec 32) : Prop :=
  match vcb.fatType with
  | .fat12 => (vcb.entryStart index).toNat + 1 = vcb.sizeOfFatLoaded.toNat
  | .fat16 => vcb.sizeOfFatLoaded.toNat < (index * 2).toNat + 2
  | .fat32 => vcb.sizeOfFatLoaded.toNat < (index * 4).toNat + 4

section inside

variable {vcb : Fsfatvcb} {index : BitVec 32}

/-- Only the first byte of a 12-bit entry is compared with the size of the loaded part, and no byte of a wider one. -/
theorem tableReads_inside (vcb : Fsfatvcb) (index : BitVec 32) :
    (∀ n ∈ vcb.tableReads index, n < vcb.sizeOfFatLoaded) ↔ ¬vcb.Overrun index := by
  unfold Fsfatvcb.Overrun Fsfatvcb.tableReads
  cases type : vcb.fatType with
  | fat12 =>
    dsimp only
    by_cases fetched : vcb.Fetched index
    · have behind := BitVec.le_def.mp fetched.2
      simp only [if_pos fetched, List.not_mem_nil, false_imp_iff, implies_true, true_iff]
      omega
    · have before : ¬vcb.sizeOfFatLoaded ≤ vcb.entryStart index := fun behind => fetched ⟨type, behind⟩
      simp only [if_neg fetched, reduceCtorEq, if_false, List.forall_mem_cons, List.not_mem_nil, false_imp_iff,
        implies_true, and_true]
      bv_omega
  | fat16 =>
    have wide : ¬vcb.Fetched index := fun fetched => absurd (type.symm.trans fetched.1) (by decide)
    have start : vcb.entryStart index = index * 2 := by simp only [Fsfatvcb.entryStart, type]
    simp only [if_neg wide, start, reduceCtorEq, if_false, List.forall_mem_cons, List.not_mem_nil, false_imp_iff,
      implies_true, and_true]
    bv_omega
  | fat32 =>
    have wide : ¬vcb.Fetched index := fun fetched => absurd (type.symm.trans fetched.1) (by decide)
    have start : vcb.entryStart index = index * 4 := by simp only [Fsfatvcb.entryStart, type]
    simp only [if_neg wide, start, if_true, List.forall_mem_cons, List.not_mem_nil, false_imp_iff, implies_true,
      and_true]
    bv_omega

/-- The driver and the boot loader find the value at an index of a packed table whose two bytes are loaded, and the driver
looks at no byte behind the loaded part. -/
structure PackingRight (checked : Bool) (vcb : Fsfatvcb) (index : BitVec 32) : Prop where
  values : ∀ (entries : Nat → BitVec 12) (loader : BitVec 16 → BitVec 8), vcb.fatType = .fat12 → index.toNat < 4096 →
    vcb.Loaded index →
    (∀ n < vcb.sizeOfFatLoaded.toNat, vcb.fat (BitVec.ofNat 32 n) = packed entries n) →
    (∀ n, index.toNat * 3 / 2 ≤ n → n ≤ index.toNat * 3 / 2 + 1 → loader (BitVec.ofNat 16 n) = packed entries n) →
    fsFatReadFatEntry checked vcb index = some ((entries index.toNat).setWidth 32) ∧
      getFatCluster loader (index.setWidth 16) = (entries index.toNat).setWidth 16
  inside : ∀ n ∈ vcb.tableReads index, n < vcb.sizeOfFatLoaded

theorem packing_values (checked : Bool) {entries : Nat → BitVec 12} {loader : BitVec 16 → BitVec 8}
    (type : vcb.fatType = .fat12) (inRange : index.toNat < 4096) (loaded : vcb.Loaded index)
    (table : ∀ n < vcb.sizeOfFatLoaded.toNat, vcb.fat (BitVec.ofNat 32 n) = packed entries n)
    (segment : ∀ n, index.toNat * 3 / 2 ≤ n → n ≤ index.toNat * 3 / 2 + 1 →
      loader (BitVec.ofNat 16 n) = packed entries n) :
    fsFatReadFatEntry checked vcb index = some ((entries index.toNat).setWidth 32) ∧
      getFatCluster loader (index.setWidth 16) = (entries index.toNat).setWidth 16 := by
  have cx : (index.setWidth 16).toNat = index.toNat := by
    rw [BitVec.toNat_setWidth]
    exact Nat.mod_eq_of_lt (by omega)
  constructor
  · rw [fsFatReadFatEntry_link checked (by rw [type]; exact inRange) fun _ => loaded, link_packed type loaded table]
  · rw [← cx] at inRange segment ⊢
    exact getFatCluster_packed inRange (segment _ (Nat.le_refl _) (by omega)) (segment _ (by omega) (Nat.le_refl _))

/-- The values are right throughout; what the driver reads is in the loaded part unless the entry overruns it. -/
theorem fat12_packing_iff (checked : Bool) (vcb : Fsfatvcb) (index : BitVec 32) :
    PackingRight checked vcb index ↔ ¬vcb.Overrun index := by
  constructor
  · intro right
    exact (tableReads_inside vcb index).mp right.inside
  · intro short
    exact ⟨fun _ _ => packing_values checked, (tableReads_inside vcb index).mpr short⟩

end inside

/-- A 12-bit table of one sector. -/
def oneSectorTable : Fsfatvcb where
  fat _ := 0
  sizeOfFatLoaded := 512
  fatType := .fat12

theorem lastByte_overrun : oneSectorTable.sizeOfFatLoaded = 512 ∧ oneSectorTable.tableReads 341 = [511, 512] ∧
    ¬PackingRight true oneSectorTable 341 := by
  have reads : oneSectorTable.tableReads 341 = [511, 512] := by decide
  refine ⟨rfl, reads, fun right => ?_⟩
  have inside := right.inside 512 (by rw [reads]; decide)
  exact absurd inside (by decide)

end Gr8os.FsFat
