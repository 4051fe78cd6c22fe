import Gr8os.FsFat.Fat
import Gr8os.Lib.Visits

/-! The root directory of a volume that keeps it in a cluster chain: how long the chain is taken to be, and which clusters of
it are read. A loop that has no fuel left, or a machine that no longer runs, gives none. -/
namespace Gr8os.FsFat

open Visits

/-- An entry at which the chain is given up. -/
def Marked (t : FatType) (entry : BitVec 32) : Prop :=
  let table := fsFatGetClTable t
  table.lastClusterStart ≤ entry ∨ table.reservedStart ≤ entry ∧ entry ≤ table.reservedEnd ∨ entry = table.badCluster

instance (t : FatType) (entry : BitVec 32) : Decidable (Marked t entry) := inferInstanceAs (Decidable (_ ∨ _))

/-- The count, and the clusters whose entries were read for it. -/
structure ChainSize where
  size : BitVec 32
  visited : List (BitVec 32)
deriving DecidableEq, Repr

def sizeLoop (checked : Bool) (vcb : Fsfatvcb) : Nat → BitVec 32 → BitVec 32 → Option ChainSize
  | 0, _, _ => none
  | fuel + 1, cluster, i =>
    (fsFatReadFatEntry checked vcb cluster).bind fun next =>
      let table := fsFatGetClTable vcb.fatType
      if table.lastClusterStart ≤ next then some ⟨i, [cluster]⟩
      else if table.reservedStart ≤ next ∧ next ≤ table.reservedEnd then some ⟨i, [cluster]⟩
      else if next = table.badCluster then some ⟨i, [cluster]⟩
      else (sizeLoop checked vcb fuel next (i + 1)).map fun s => { s with visited := cluster :: s.visited }

def fsFatSizeOfClusterChain (checked : Bool) (vcb : Fsfatvcb) (fuel : Nat) (head : BitVec 32) : Option ChainSize :=
  sizeLoop checked vcb fuel (cluster vcb head) 1

/-- A cluster of the directory, and where in the buffer it is read to. -/
structure ClusterRead where
  cluster : BitVec 32
  bufferPos : BitVec 32
deriving DecidableEq, Repr

/-- The loop of FsFatCreateVcb that reads the directory. Its status, which is that of the last read, ends it nowhere. -/
def rootLoop (checked : Bool) (vcb : Fsfatvcb) : Nat → BitVec 32 → BitVec 32 → Option (List ClusterRead)
  | 0, _, _ => none
  | fuel + 1, cluster, iBufferPos =>
    if 2 ≤ cluster ∧ cluster < 0xFF0 then
      (fsFatReadFatEntry checked vcb cluster).bind fun next =>
        (rootLoop checked vcb fuel next (iBufferPos + vcb.clusterSize)).map (⟨cluster, iBufferPos⟩ :: ·)
    else some []

/-- How much is allocated for the directory. -/
def rootDirectorySize (vcb : Fsfatvcb) (s : ChainSize) : BitVec 32 := s.size * vcb.clusterSize

/-- Both loops end, they go through the same clusters, and the bytes that are read are those of the buffer. -/
def RootLoaded (checked : Bool) (vcb : Fsfatvcb) (rootDirectoryCluster : BitVec 32) : Prop :=
  ∃ s reads, (∃ fuel, fsFatSizeOfClusterChain checked vcb fuel rootDirectoryCluster = some s) ∧
    (∃ fuel, rootLoop checked vcb fuel rootDirectoryCluster 0 = some reads) ∧
    reads.map (·.cluster) = s.visited ∧
    ∀ x, x < (rootDirectorySize vcb s).toNat ↔
      ∃ r ∈ reads, r.bufferPos.toNat ≤ x ∧ x < r.bufferPos.toNat + vcb.clusterSize.toNat

/-- From the root cluster on, the chain leads to a mark over clusters from 2 to 0xFEF, which have less than 4 GB. -/
def RootChain (checked : Bool) (vcb : Fsfatvcb) (rootDirectoryCluster : BitVec 32) : Prop :=
  ∃ l mark, l ≠ [] ∧ Leads (fsFatReadFatEntry checked vcb) rootDirectoryCluster l mark ∧ Marked vcb.fatType mark ∧
    (∀ c ∈ l, 2 ≤ c ∧ c < 0xFF0) ∧ l.length * vcb.clusterSize.toNat < 2 ^ 32

section loops

variable {checked : Bool} {vcb : Fsfatvcb} {c i p mark : BitVec 32} {l : List (BitVec 32)} {fuel : Nat}

/-- The marks of every type are above the clusters that the second loop takes. -/
theorem marked_ge {t : FatType} {entry : BitVec 32} (marked : Marked t entry) : 0xFF0 ≤ entry := by
  have low : 0xFF0 ≤ (fsFatGetClTable t).reservedStart ∧ 0xFF0 ≤ (fsFatGetClTable t).lastClusterStart ∧
      0xFF0 ≤ (fsFatGetClTable t).badCluster := by
    cases t <;> decide
  rcases marked with last | ⟨reserved, _⟩ | rfl
  · exact BitVec.le_trans low.2.1 last
  · exact BitVec.le_trans low.1 reserved
  · exact low.2.2

theorem sizeLoop_succ (fuel : Nat) (c i : BitVec 32) : sizeLoop checked vcb (fuel + 1) c i =
    (fsFatReadFatEntry checked vcb c).bind fun next =>
      if Marked vcb.fatType next then some ⟨i, [c]⟩
      else (sizeLoop checked vcb fuel next (i + 1)).map fun s => { s with visited := c :: s.visited } := by
  rw [sizeLoop]
  congr 1
  funext next
  dsimp only
  by_cases last : (fsFatGetClTable vcb.fatType).lastClusterStart ≤ next
  · rw [if_pos last, if_pos (.inl last)]
  · rw [if_neg last]
    by_cases reserved : (fsFatGetClTable vcb.fatType).reservedStart ≤ next ∧
        next ≤ (fsFatGetClTable vcb.fatType).reservedEnd
    · rw [if_pos reserved, if_pos (.inr (.inl reserved))]
    · rw [if_neg reserved]
      by_cases bad : next = (fsFatGetClTable vcb.fatType).badCluster
      · rw [if_pos bad, if_pos (.inr (.inr bad))]
      · have plain : ¬Marked vcb.fatType next := not_or.mpr ⟨last, not_or.mpr ⟨reserved, bad⟩⟩
        rw [if_neg bad, if_neg plain]

/-- The first loop counts the clusters up to the first mark. -/
theorem sizeLoop_leads {s : ChainSize} (ended : sizeLoop checked vcb fuel c i = some s) :
    ∃ mark, s.visited ≠ [] ∧ Leads (fsFatReadFatEntry checked vcb) c s.visited mark ∧ Marked vcb.fatType mark ∧
      s.size + 1 = i + BitVec.ofNat 32 s.visited.length := by
  induction fuel generalizing c i s with
  | zero => cases ended
  | succ fuel ih =>
    rw [sizeLoop_succ] at ended
    obtain ⟨next, entry, ended⟩ := Option.bind_eq_some_iff.mp ended
    split at ended
    · next marked =>
      cases ended
      exact ⟨next, List.cons_ne_nil _ _, ⟨rfl, next, entry, rfl⟩, marked, rfl⟩
    · obtain ⟨rest, later, rfl⟩ := Option.map_eq_some_iff.mp ended
      obtain ⟨mark, _, leads, marked, count⟩ := ih later
      refine ⟨mark, List.cons_ne_nil _ _, ⟨rfl, next, entry, leads⟩, marked, ?_⟩
      dsimp only at count ⊢
      rw [List.length_cons, BitVec.ofNat_add, count]
      ac_rfl

/-- The loop ends where a chain of clusters without marks leads to a mark. -/
theorem sizeLoop_ends (nonempty : l ≠ []) (leads : Leads (fsFatReadFatEntry checked vcb) c l mark)
    (marked : Marked vcb.fatType mark) (plain : ∀ c ∈ l, ¬Marked vcb.fatType c) (i : BitVec 32) :
    ∃ fuel s, sizeLoop checked vcb fuel c i = some s ∧ s.visited = l := by
  induction l generalizing c i with
  | nil => exact absurd rfl nonempty
  | cons x l ih =>
    obtain ⟨rfl, next, entry, rest⟩ := leads
    cases l with
    | nil =>
      obtain rfl : next = mark := rest
      refine ⟨1, ⟨i, [c]⟩, ?_, rfl⟩
      rw [sizeLoop_succ, entry, Option.bind_some, if_pos marked]
    | cons y l =>
      obtain ⟨fuel, s, ended, visited⟩ := ih (List.cons_ne_nil y l) rest
        (fun c member => plain c (List.mem_cons_of_mem _ member)) (i + 1)
      obtain ⟨rfl, _⟩ := rest
      refine ⟨fuel + 1, { s with visited := c :: s.visited }, ?_, congrArg (c :: ·) visited⟩
      rw [sizeLoop_succ, entry, Option.bind_some, if_neg (plain next (by simp)), ended, Option.map_some]

/-- The second loop goes over the clusters up to the first one that it does not take for a cluster. -/
theorem rootLoop_leads {reads : List ClusterRead} (ended : rootLoop checked vcb fuel c p = some reads) :
    ∃ last, Leads (fsFatReadFatEntry checked vcb) c (reads.map (·.cluster)) last ∧
      (∀ r ∈ reads, 2 ≤ r.cluster ∧ r.cluster < 0xFF0) ∧
      ∀ k r, reads[k]? = some r → r.bufferPos = p + BitVec.ofNat 32 k * vcb.clusterSize := by
  induction fuel generalizing c p reads with
  | zero => cases ended
  | succ fuel ih =>
    rw [rootLoop] at ended
    split at ended
    · next inside =>
      obtain ⟨next, entry, ended⟩ := Option.bind_eq_some_iff.mp ended
      obtain ⟨rest, later, rfl⟩ := Option.map_eq_some_iff.mp ended
      obtain ⟨last, leads, within, places⟩ := ih later
      refine ⟨last, ⟨rfl, next, entry, leads⟩, List.forall_mem_cons.mpr ⟨inside, within⟩, fun k r here => ?_⟩
      cases k with
      | zero =>
        cases here
        simp
      | succ k =>
        rw [places k r here, BitVec.ofNat_add, BitVec.add_mul]
        simp only [BitVec.one_mul]
        ac_rfl
    · cases ended
      exact ⟨c, rfl, by simp, by simp⟩

theorem rootLoop_ends {last : BitVec 32} (leads : Leads (fsFatReadFatEntry checked vcb) c l last)
    (inside : ∀ c ∈ l, 2 ≤ c ∧ c < 0xFF0) (outside : ¬(2 ≤ last ∧ last < 0xFF0)) (p : BitVec 32) :
    ∃ fuel reads, rootLoop checked vcb fuel c p = some reads ∧ reads.map (·.cluster) = l := by
  induction l generalizing c p with
  | nil =>
    obtain rfl : c = last := leads
    exact ⟨1, [], if_neg outside, rfl⟩
  | cons x l ih =>
    obtain ⟨rfl, next, entry, rest⟩ := leads
    obtain ⟨fuel, reads, ended, visited⟩ := ih rest (fun c member => inside c (List.mem_cons_of_mem _ member))
      (p + vcb.clusterSize)
    refine ⟨fuel + 1, ⟨c, p⟩ :: reads, ?_, congrArg (c :: ·) visited⟩
    rw [rootLoop, if_pos (inside c (by simp)), entry, Option.bind_some, ended, Option.map_some]

end loops

section fill

/-- Pieces of one length, placed one after another in numbers of 32 bits, fill a buffer of as many bytes as the product of
their number and their length has, where that product needs no more than 32 bits. -/
theorem pieces_fill_iff {size : BitVec 32} {n m : Nat} {place : Nat → BitVec 32}
    (placed : ∀ k < n, place k = BitVec.ofNat 32 k * size) (total : m = n * size.toNat % 2 ^ 32) :
    (∀ x, x < m ↔ ∃ k < n, (place k).toNat ≤ x ∧ x < (place k).toNat + size.toNat) ↔ n * size.toNat < 2 ^ 32 := by
  have exact (k : Nat) (less : k < n) (fits : k * size.toNat < 2 ^ 32) : (place k).toNat = k * size.toNat := by
    rw [placed k less, BitVec.toNat_mul, BitVec.toNat_ofNat, Nat.mod_mul_mod]
    exact Nat.mod_eq_of_lt fits
  constructor
  · intro filled
    by_contra large
    have pos : 0 < size.toNat := by
      apply Nat.pos_of_ne_zero
      intro zero
      rw [zero, Nat.mul_zero] at large
      exact large (by decide)
    have low := Nat.div_mul_le_self (2 ^ 32 - 1) size.toNat
    have high := Nat.lt_div_mul_add (a := 2 ^ 32 - 1) pos
    have before : (2 ^ 32 - 1) / size.toNat < n := by
      by_contra past
      have most := Nat.mul_le_mul_right size.toNat (Nat.not_lt.mp past)
      omega
    have place := exact _ before (by omega)
    have inside := (filled (2 ^ 32 - 1)).mpr ⟨_, before, by omega, by omega⟩
    omega
  · intro fits x
    rw [total, Nat.mod_eq_of_lt fits]
    have each (k : Nat) (less : k < n) : (k + 1) * size.toNat ≤ n * size.toNat := Nat.mul_le_mul_right _ less
    simp only [Nat.succ_mul] at each
    constructor
    · intro inside
      have pos : 0 < size.toNat := by
        apply Nat.pos_of_ne_zero
        intro zero
        rw [zero, Nat.mul_zero] at inside
        exact absurd inside (Nat.not_lt_zero x)
      have less : x / size.toNat < n := (Nat.div_lt_iff_lt_mul pos).mpr inside
      have low := Nat.div_mul_le_self x size.toNat
      have high := Nat.lt_div_mul_add (a := x) pos
      have within := each _ less
      have place := exact _ less (by omega)
      exact ⟨_, less, by omega, by omega⟩
    · rintro ⟨k, less, _, above⟩
      have within := each k less
      have place := exact k less (by omega)
      omega

end fill

/-- The chain head is masked for the count, and the mask takes nothing from a cluster below 0xFF0. -/
theorem cluster_small (vcb : Fsfatvcb) {c : BitVec 32} (small : c < 0xFF0) : cluster vcb c = c := by
  have low : c.toNat < 2 ^ 12 := Nat.lt_of_lt_of_le (BitVec.lt_def.mp small) (by decide)
  unfold cluster
  apply BitVec.eq_of_toNat_eq
  rw [BitVec.toNat_and]
  cases vcb.fatType with
  | fat12 => exact (Nat.and_two_pow_sub_one_eq_mod c.toNat 12).trans (Nat.mod_eq_of_lt low)
  | fat16 => exact (Nat.and_two_pow_sub_one_eq_mod c.toNat 16).trans (Nat.mod_eq_of_lt (by omega))
  | fat32 => exact (Nat.and_two_pow_sub_one_eq_mod c.toNat 28).trans (Nat.mod_eq_of_lt (by omega))

section directory

variable {checked : Bool} {vcb : Fsfatvcb} {root : BitVec 32}

/-- What the reads fill, when they go over the clusters that were counted. -/
theorem reads_fill_iff {s : ChainSize} {reads : List ClusterRead} (same : reads.map (·.cluster) = s.visited)
    (count : s.size + 1 = 1 + BitVec.ofNat 32 s.visited.length)
    (places : ∀ k r, reads[k]? = some r → r.bufferPos = 0 + BitVec.ofNat 32 k * vcb.clusterSize) :
    (∀ x, x < (rootDirectorySize vcb s).toNat ↔
      ∃ r ∈ reads, r.bufferPos.toNat ≤ x ∧ x < r.bufferPos.toNat + vcb.clusterSize.toNat) ↔
    s.visited.length * vcb.clusterSize.toNat < 2 ^ 32 := by
  have length : reads.length = s.visited.length := by rw [← same, List.length_map]
  have size : s.size = BitVec.ofNat 32 s.visited.length := by bv_omega
  have total : (rootDirectorySize vcb s).toNat = s.visited.length * vcb.clusterSize.toNat % 2 ^ 32 := by
    rw [rootDirectorySize, size, BitVec.toNat_mul, BitVec.toNat_ofNat, Nat.mod_mul_mod]
  have placed (k : Nat) (_ : k < s.visited.length) :
      0 + BitVec.ofNat 32 k * vcb.clusterSize = BitVec.ofNat 32 k * vcb.clusterSize := BitVec.zero_add _
  have pieces := pieces_fill_iff placed total
  rw [← pieces]
  apply forall_congr'
  intro x
  apply iff_congr Iff.rfl
  constructor
  · rintro ⟨r, member, inside⟩
    obtain ⟨k, here⟩ := List.getElem?_of_mem member
    have less : k < reads.length := (List.getElem?_eq_some_iff.mp here).1
    rw [places k r here] at inside
    exact ⟨k, length ▸ less, inside⟩
  · rintro ⟨k, less, inside⟩
    rw [← length] at less
    have here : reads[k]? = some reads[k] := List.getElem?_eq_getElem less
    refine ⟨_, List.mem_of_getElem? here, ?_⟩
    rw [places k _ here]
    exact inside

/-- The directory is loaded as a whole where its chain keeps to clusters below 0xFF0 and comes to a mark. -/
theorem rootDirectory_loaded_iff (checked : Bool) (vcb : Fsfatvcb) (root : BitVec 32) :
    RootLoaded checked vcb root ↔ RootChain checked vcb root := by
  constructor
  · rintro ⟨s, reads, ⟨fuel, sized⟩, ⟨fuel', read⟩, same, filled⟩
    obtain ⟨mark, nonempty, leads, marked, count⟩ := sizeLoop_leads sized
    obtain ⟨last, leads', inside, places⟩ := rootLoop_leads read
    rw [same] at leads'
    obtain ⟨_, rfl⟩ := leads.unique leads' nonempty
    refine ⟨s.visited, mark, nonempty, leads', marked, fun c member => ?_, (reads_fill_iff same count places).mp filled⟩
    rw [← same] at member
    obtain ⟨r, listed, rfl⟩ := List.mem_map.mp member
    exact inside r listed
  · rintro ⟨l, mark, nonempty, leads, marked, inside, fits⟩
    have head : cluster vcb root = root := by
      cases l with
      | nil => exact absurd rfl nonempty
      | cons x l =>
        obtain ⟨rfl, _⟩ := leads
        exact cluster_small vcb (inside root (by simp)).2
    have plain : ∀ c ∈ l, ¬Marked vcb.fatType c := by
      intro c member isMark
      exact absurd (inside c member).2 (BitVec.not_lt.mpr (marked_ge isMark))
    have outside : ¬(2 ≤ mark ∧ mark < 0xFF0) := fun within => absurd within.2 (BitVec.not_lt.mpr (marked_ge marked))
    obtain ⟨fuel, s, sized, visited⟩ := sizeLoop_ends nonempty leads marked plain 1
    obtain ⟨fuel', reads, read, clusters⟩ := rootLoop_ends leads inside outside 0
    obtain ⟨_, _, _, _, count⟩ := sizeLoop_leads sized
    obtain ⟨_, _, _, places⟩ := rootLoop_leads read
    rw [← visited] at clusters fits
    refine ⟨s, reads, ⟨fuel, ?_⟩, ⟨fuel', read⟩, clusters, (reads_fill_iff clusters count places).mpr fits⟩
    rw [fsFatSizeOfClusterChain, head]
    exact sized

end directory

/-- A 32-bit table in which cluster 2 leads to itself, and the chain of cluster 0x1000 ends with it. -/
def rootTable : Fsfatvcb where
  fat n := if n = 8 then 2 else if n < 0x4000 then 0 else if n = 0x4003 then 0x0F else 0xFF
  sizeOfFatLoaded := 12288
  fatType := .fat32

theorem selfLinked_endless : fsFatReadFatEntry true rootTable 2 = some 2 ∧
    (∀ fuel, fsFatSizeOfClusterChain true rootTable fuel 2 = none) ∧ ¬RootLoaded true rootTable 2 := by
  have entry : fsFatReadFatEntry true rootTable 2 = some 2 := by decide
  have plain : ¬Marked rootTable.fatType 2 := by decide
  have endless : ∀ fuel i, sizeLoop true rootTable fuel 2 i = none := by
    intro fuel
    induction fuel with
    | zero =>
      intro i
      rfl
    | succ fuel ih =>
      intro i
      rw [sizeLoop_succ, entry, Option.bind_some, if_neg plain, ih, Option.map_none]
  have head : cluster rootTable 2 = 2 := by decide
  have never (fuel : Nat) : fsFatSizeOfClusterChain true rootTable fuel 2 = none := by
    rw [fsFatSizeOfClusterChain, head, endless]
  refine ⟨entry, never, ?_⟩
  rintro ⟨s, _, ⟨fuel, ended⟩, _⟩
  rw [never fuel] at ended
  cases ended

/-- Of a chain that begins with a higher cluster nothing is read. -/
example : fsFatSizeOfClusterChain true rootTable 1 0x1000 = some ⟨1, [0x1000]⟩ ∧
    rootLoop true rootTable 1 0x1000 0 = some [] := by
  decide

end Gr8os.FsFat
