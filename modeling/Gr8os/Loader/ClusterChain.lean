import Gr8os.FsFat.Packing
import Gr8os.Loader.DoRead

/-! The boot loader's way through a cluster chain: one call of the boot sector's routine for each cluster, the next place
in memory, the end mark. -/
namespace Gr8os.Loader

open FsFat (packed getFatCluster getFatCluster_packed mul)

abbrev Memory := Nat → BitVec 8

/-- The bytes of each sector of the drive. -/
abbrev Disk := Nat → Nat → BitVec 8

/-- A 12-bit volume that the BIOS can address: its clusters follow the root directory. -/
structure Volume where
  bpb : Bpb
  sectorsPerCluster : BitVec 8
  clusterBase : BitVec 16
  clusters : Nat
  geometry : Geometry bpb
  positive : 0 < sectorsPerCluster.toNat
  fat12 : 0 < clusters ∧ clusters < 4085
  addressable : ∀ i < clusterBase.toNat + sectorsPerCluster.toNat * clusters,
    Addressable bpb (bpb.hiddenSectors.toNat + i)

def KernelStart : BitVec 16 := 0xB000

/-- What a call leaves in memory: each sector at its offset. -/
def placeSector (disk : Disk) (es : BitVec 16) (m : Memory) (transfer : Nat × Nat) : Memory :=
  let start := 16 * es.toNat + transfer.2
  fun a => if start ≤ a ∧ a < start + 512 then disk transfer.1 (a - start) else m a

def ReadResult.stored (b : Bpb) (disk : Disk) (r : ReadResult) (m : Memory) : Memory :=
  r.calls.foldl (fun m c => (c.transfers b).foldl (placeSector disk c.es) m) m

inductive Outcome
  | halted
  | loaded (m : Memory)

namespace Volume

variable (v : Volume) (disk : Disk) (int13 : BiosRead → Bool)

/-- The boot sector's routine: DX is a cluster, and AL is how many sectors are read from its first one on. -/
def clusterRead (es bx : BitVec 16) (fuel : Nat) (dx : BitVec 16) (al : BitVec 8) : Option ReadResult :=
  let (dx, ax) := mul (v.sectorsPerCluster.setWidth 16) (dx - 1 - 1)
  let sectorBase : BitVec 32 := (dx ++ ax) + v.clusterBase.setWidth 32
  doRead v.bpb es bx int13 fuel sectorBase al

def readClusters (es bx : BitVec 16) (fuel : Nat) (dx : BitVec 16) (al : BitVec 8) (m : Memory) : Option Outcome := do
  let r ← v.clusterRead int13 es bx fuel dx al
  if r.carry then return .halted else return .loaded (r.stored v.bpb disk m)

def bytesPerCluster : BitVec 16 := v.sectorsPerCluster.setWidth 16 * SectorSize

/-- From the cluster in CX on, without it. The table is in memory at 0200:0000. -/
def readClusterChain : Nat → BitVec 16 → BitVec 16 → BitVec 16 → Memory → Option Outcome
  | 0, _, _, _, _ => none
  | fuel + 1, cx, es, bx, m => do
    let ax := getFatCluster (fun si => m (0x2000 + si.toNat)) cx
    if 0xFF8 ≤ ax then return .loaded m
    else
      -- segment border exceeded
      let es := if bx = 0 then es + 0x1000 else es
      match ← v.readClusters disk int13 es bx fuel ax 1 m with
      | .halted => return .halted
      | .loaded m => readClusterChain fuel ax es (bx + v.bytesPerCluster) m

/-- CX is the cluster that the directory entry of the kernel file names. -/
def continueLoadKernel (fuel : Nat) (cx : BitVec 16) (m : Memory) : Option Outcome := do
  match ← v.readClusters disk int13 0 KernelStart fuel cx 1 m with
  | .halted => return .halted
  | .loaded m => v.readClusterChain disk int13 fuel cx 0 0xB200 m

def clusterSize : Nat := 512 * v.sectorsPerCluster.toNat

def firstSector (c : Nat) : Nat :=
  v.bpb.hiddenSectors.toNat + v.clusterBase.toNat + v.sectorsPerCluster.toNat * (c - 2)

def FatLoaded (entries : Nat → BitVec 12) (m : Memory) : Prop :=
  ∀ n < (3 * (v.clusters + 2) + 1) / 2, m (0x2000 + n) = packed entries n

def Valid (c : Nat) : Prop := 2 ≤ c ∧ c < v.clusters + 2

/-- Every cluster of the list is in memory from `start` on, one after another, and the rest of the memory is as it was. -/
structure Holds (start : Nat) (chain : List Nat) (m m' : Memory) : Prop where
  content : ∀ k c, chain[k]? = some c → ∀ j < v.clusterSize,
    m' (start + k * v.clusterSize + j) = disk (v.firstSector c + j / 512) (j % 512)
  frame : ∀ a, a < start ∨ start + chain.length * v.clusterSize ≤ a → m' a = m a

end Volume

/-- The entries lead from the cluster through the list to an end mark. -/
def Linked (entries : Nat → BitVec 12) : Nat → List Nat → Prop
  | c, [] => 0xFF8 ≤ entries c
  | c, d :: rest => (entries c).toNat = d ∧ Linked entries d rest

/-- Whatever file the volume has, the loader puts it in its place as far as the end mark. -/
def LoadsKernel (v : Volume) : Prop :=
  ∀ (disk : Disk) (entries : Nat → BitVec 12) (first : Nat) (rest : List Nat) (m : Memory),
    (∀ c ∈ first :: rest, v.Valid c) → Linked entries first rest → v.FatLoaded entries m →
    KernelStart.toNat + (first :: rest).length * v.clusterSize ≤ 2 ^ 20 →
    ∃ fuel m', v.continueLoadKernel disk (fun _ => false) fuel (BitVec.ofNat 16 first) m = some (.loaded m') ∧
      v.Holds disk KernelStart.toNat (first :: rest) m m'

section places

variable {v : Volume} {disk : Disk} {int13 : BiosRead → Bool} {es bx : BitVec 16} {entries : Nat → BitVec 12}
  {m m' : Memory} {start c : Nat} {rest : List Nat}

theorem mul_halves (ax cx : BitVec 16) : ((mul ax cx).1 ++ (mul ax cx).2).toNat = ax.toNat * cx.toNat := by
  have small : ax.toNat * cx.toNat < 2 ^ 32 := by
    have := Nat.mul_lt_mul'' ax.isLt cx.isLt
    omega
  have product : (ax.setWidth 32 * cx.setWidth 32).toNat = ax.toNat * cx.toNat := by
    rw [BitVec.toNat_mul, BitVec.toNat_setWidth, BitVec.toNat_setWidth]
    rw [Nat.mod_eq_of_lt (Nat.lt_trans ax.isLt (by decide)), Nat.mod_eq_of_lt (Nat.lt_trans cx.isLt (by decide)),
      Nat.mod_eq_of_lt small]
  have whole : ∀ x : BitVec 32, ((x >>> 16).setWidth 16 ++ x.setWidth 16 : BitVec 32) = x := by
    intro x
    apply BitVec.eq_of_getLsbD_eq
    intro i inside
    rw [BitVec.getLsbD_append]
    split
    next low => rw [BitVec.getLsbD_setWidth, decide_eq_true low, Bool.true_and]
    next high =>
      rw [BitVec.getLsbD_setWidth, BitVec.getLsbD_ushiftRight, decide_eq_true (by omega), Bool.true_and,
        Nat.add_sub_cancel' (by omega)]
  rw [mul, whole, product]

/-- One sector is read from the beginning of the cluster, whatever its size is. -/
theorem Volume.clusterRead_covers (quiet : ∀ c, int13 c = false) {fuel : Nat} (enough : 0 < fuel) (valid : v.Valid c)
    (room : bx.toNat + 512 ≤ 2 ^ 16) :
    ∃ r, v.clusterRead int13 es bx fuel (BitVec.ofNat 16 c) 1 = some r ∧
      r.Covers v.bpb es (v.firstSector c) bx.toNat 1 := by
  obtain ⟨least, most⟩ := valid
  have few := v.fat12.2
  have positive := v.positive
  have index : (BitVec.ofNat 16 c - 1 - 1).toNat = c - 2 := by bv_omega
  have spc : (v.sectorsPerCluster.setWidth 16 : BitVec 16).toNat = v.sectorsPerCluster.toNat := by
    rw [BitVec.toNat_setWidth]
    omega
  have product := mul_halves (v.sectorsPerCluster.setWidth 16) (BitVec.ofNat 16 c - 1 - 1)
  rw [spc, index] at product
  have below : v.sectorsPerCluster.toNat * (c - 2) + v.sectorsPerCluster.toNat ≤
      v.sectorsPerCluster.toNat * v.clusters := Nat.mul_le_mul_left _ (by omega : c - 2 + 1 ≤ v.clusters)
  have bound : v.sectorsPerCluster.toNat * v.clusters ≤ 255 * 4084 := Nat.mul_le_mul (by omega) (by omega)
  have inside := v.addressable (v.clusterBase.toNat + v.sectorsPerCluster.toNat * (c - 2)) (by omega)
  rw [← Nat.add_assoc] at inside
  have place : ((mul (v.sectorsPerCluster.setWidth 16) (BitVec.ofNat 16 c - 1 - 1)).1 ++
      (mul (v.sectorsPerCluster.setWidth 16) (BitVec.ofNat 16 c - 1 - 1)).2 + v.clusterBase.setWidth 32).toNat +
        v.bpb.hiddenSectors.toNat = v.firstSector c := by
    rw [BitVec.toNat_add, product, BitVec.toNat_setWidth, firstSector]
    omega
  refine drLoops_cover v.geometry quiet Nat.one_pos enough rfl place ?_ room
  intro i here
  rwa [Nat.lt_one_iff.mp here]

theorem placeSector_outside {sector offset a : Nat}
    (outside : a < 16 * es.toNat + offset ∨ 16 * es.toNat + offset + 512 ≤ a) :
    placeSector disk es m (sector, offset) a = m a := by
  unfold placeSector
  dsimp only
  rw [if_neg (by omega)]

theorem ReadResult.stored_eq {b : Bpb} {r : ReadResult} (segment : ∀ c ∈ r.calls, c.es = es) :
    r.stored b disk m = (r.calls.flatMap (BiosRead.transfers b)).foldl (placeSector disk es) m := by
  rw [stored, List.foldl_flatMap]
  apply List.foldl_ext
  intro m c listed
  rw [segment c listed]

theorem Volume.readClusters_eq (quiet : ∀ c, int13 c = false) {fuel : Nat} (enough : 0 < fuel) (valid : v.Valid c)
    (room : bx.toNat + 512 ≤ 2 ^ 16) :
    v.readClusters disk int13 es bx fuel (BitVec.ofNat 16 c) 1 m =
      some (.loaded (placeSector disk es m (v.firstSector c, bx.toNat))) := by
  obtain ⟨r, reads, covers⟩ := clusterRead_covers quiet enough valid room
  rw [readClusters, reads]
  simp only [Option.bind_eq_bind, Option.bind_some, covers.carry, Bool.false_eq_true, if_false]
  rw [ReadResult.stored_eq covers.segment, covers.transfers]
  rfl

theorem Volume.Holds.cons {between : Memory} (head : v.Holds disk start [c] m between)
    (tail : v.Holds disk (start + v.clusterSize) rest between m') : v.Holds disk start (c :: rest) m m' where
  content := by
    intro k d listed j inside
    cases k with
    | zero =>
      have here := head.content 0 d listed j inside
      rwa [tail.frame _ (.inl (by omega))]
    | succ k =>
      have there := tail.content k d listed j inside
      have same : start + (k + 1) * v.clusterSize = start + v.clusterSize + k * v.clusterSize := by
        rw [Nat.succ_mul]
        omega
      rwa [same]
  frame := by
    intro a outside
    rw [List.length_cons, Nat.succ_mul] at outside
    rw [tail.frame a (by omega), head.frame a (by rw [List.length_singleton]; omega)]

/-- Where a cluster is one sector, that sector is all of it. -/
theorem Volume.holds_sector (one : v.sectorsPerCluster = 1) (place : 16 * es.toNat + bx.toNat = start) :
    v.Holds disk start [c] m (placeSector disk es m (v.firstSector c, bx.toNat)) := by
  have size : v.clusterSize = 512 := by rw [clusterSize, one]; rfl
  constructor
  · intro k d listed j inside
    obtain ⟨rfl, rfl⟩ : k = 0 ∧ c = d := by
      cases k with
      | zero => exact ⟨rfl, Option.some.inj listed⟩
      | succ k => cases listed
    unfold placeSector
    dsimp only
    rw [Nat.zero_mul, Nat.add_zero start, Nat.div_eq_of_lt (by omega), Nat.mod_eq_of_lt (by omega), place,
      if_pos (by omega), Nat.add_sub_cancel_left, Nat.add_zero]
  · intro a outside
    rw [List.length_singleton, Nat.one_mul, size, ← place] at outside
    exact placeSector_outside outside

theorem Volume.FatLoaded.frame (loaded : v.FatLoaded entries m) (below : ∀ a < KernelStart.toNat, m' a = m a) :
    v.FatLoaded entries m' := by
  intro n inside
  have few := v.fat12.2
  have base : KernelStart.toNat = 0xB000 := rfl
  rw [below _ (by omega)]
  exact loaded n inside

theorem Volume.FatLoaded.getFatCluster_eq (loaded : v.FatLoaded entries m) (valid : v.Valid c) :
    getFatCluster (fun si => m (0x2000 + si.toNat)) (BitVec.ofNat 16 c) = (entries c).setWidth 16 := by
  obtain ⟨least, most⟩ := valid
  have few := v.fat12.2
  have number : (BitVec.ofNat 16 c).toNat = c := by
    rw [BitVec.toNat_ofNat]
    omega
  have byte : ∀ n, n < (3 * (v.clusters + 2) + 1) / 2 →
      m (0x2000 + (BitVec.ofNat 16 n).toNat) = packed entries n := by
    intro n inside
    rw [BitVec.toNat_ofNat, Nat.mod_eq_of_lt (by omega)]
    exact loaded n inside
  have entry : getFatCluster (fun si => m (0x2000 + si.toNat)) (BitVec.ofNat 16 c) =
      (entries (BitVec.ofNat 16 c).toNat).setWidth 16 :=
    getFatCluster_packed (by omega) (byte _ (by omega)) (byte _ (by omega))
  rwa [number] at entry

theorem Volume.clusterSize_one (one : v.sectorsPerCluster = 1) : v.clusterSize = 512 := by
  rw [clusterSize, one]
  rfl

/-- The places in memory follow one another, also from one segment to the next. -/
def At (es bx : BitVec 16) (start : Nat) : Prop :=
  bx.toNat % 512 = 0 ∧ 16 * es.toNat + (if bx = 0 then 2 ^ 16 else bx.toNat) = start

/-- At the end of a segment ES is advanced before the read. -/
theorem At.here (place : At es bx start) (inside : start < 2 ^ 20) :
    16 * (if bx = 0 then es + 0x1000 else es).toNat + bx.toNat = start := by
  obtain ⟨_, place⟩ := place
  by_cases border : bx = 0
  · have zero : bx.toNat = 0 := by rw [border]; rfl
    rw [if_pos border] at place ⊢
    rw [BitVec.toNat_add]
    change 16 * ((_ + 0x1000) % 2 ^ 16) + _ = _
    omega
  · rw [if_neg border] at place ⊢
    exact place

theorem At.next (aligned : bx.toNat % 512 = 0) (here : 16 * es.toNat + bx.toNat = start) :
    At es (bx + 512) (start + 512) := by
  have sum : (bx + 512).toNat = (bx.toNat + 512) % 2 ^ 16 := BitVec.toNat_add _ _
  refine ⟨by omega, ?_⟩
  by_cases border : bx + 512 = 0
  · have zero : (bx + 512).toNat = 0 := by rw [border]; rfl
    rw [if_pos border]
    omega
  · have nonzero : (bx + 512).toNat ≠ 0 := fun zero => border (BitVec.eq_of_toNat_eq zero)
    rw [if_neg border]
    omega

/-- An entry that leads on names the next cluster and is no end mark. -/
theorem Volume.entry_next {d : Nat} (valid : v.Valid d) (next : (entries c).toNat = d) :
    (entries c).setWidth 16 = BitVec.ofNat 16 d ∧ ¬0xFF8 ≤ BitVec.ofNat 16 d := by
  have few := v.fat12.2
  have below := valid.2
  constructor
  · rw [← next]
    apply BitVec.eq_of_toNat_eq
    rw [BitVec.toNat_setWidth, BitVec.toNat_ofNat]
  · change ¬0xFF8 ≤ (BitVec.ofNat 16 d).toNat
    rw [BitVec.toNat_ofNat]
    omega

/-- Nothing more is read at an end mark. -/
theorem Volume.readClusterChain_mark {fuel : Nat} (valid : v.Valid c) (mark : 0xFF8 ≤ entries c)
    (loaded : v.FatLoaded entries m) :
    v.readClusterChain disk int13 (fuel + 1) (BitVec.ofNat 16 c) es bx m = some (.loaded m) := by
  have wide : 0xFF8 ≤ (entries c).setWidth 16 := by
    change 0xFF8 ≤ ((entries c).setWidth 16).toNat
    have : 0xFF8 ≤ (entries c).toNat := mark
    rw [BitVec.toNat_setWidth]
    omega
  rw [readClusterChain, loaded.getFatCluster_eq valid]
  exact if_pos wide

/-- The chain behind a cluster, by induction on it: where a cluster is one sector, each turn places one and goes on where
it ends. -/
theorem Volume.readClusterChain_holds (quiet : ∀ c, int13 c = false) (one : v.sectorsPerCluster = 1) {fuel : Nat}
    (valid : v.Valid c) (others : ∀ d ∈ rest, v.Valid d) (linked : Linked entries c rest)
    (loaded : v.FatLoaded entries m) (place : At es bx start) (above : KernelStart.toNat ≤ start)
    (room : start + rest.length * v.clusterSize ≤ 2 ^ 20) (enough : rest.length < fuel) :
    ∃ m', v.readClusterChain disk int13 fuel (BitVec.ofNat 16 c) es bx m = some (.loaded m') ∧
      v.Holds disk start rest m m' := by
  induction rest generalizing fuel c es bx start m with
  | nil =>
    obtain ⟨fuel, rfl⟩ := Nat.exists_eq_succ_of_ne_zero (Nat.ne_zero_of_lt enough)
    exact ⟨m, readClusterChain_mark valid linked loaded, { content := nofun, frame := fun _ _ => rfl }⟩
  | cons d rest ih =>
    obtain ⟨fuel, rfl⟩ := Nat.exists_eq_succ_of_ne_zero (Nat.ne_zero_of_lt enough)
    obtain ⟨next, linked⟩ := linked
    have aligned := place.1
    have validNext := others d List.mem_cons_self
    have size := v.clusterSize_one one
    have advance : v.bytesPerCluster = 512 := by rw [bytesPerCluster, one]; rfl
    rw [List.length_cons, size] at room
    rw [List.length_cons] at enough
    obtain ⟨entry, goesOn⟩ := v.entry_next validNext next
    obtain ⟨segment, advanced, here⟩ : ∃ segment, (if bx = 0 then es + 0x1000 else es) = segment ∧
        16 * segment.toNat + bx.toNat = start := ⟨_, rfl, place.here (by omega)⟩
    have put : v.Holds disk start [d] m (placeSector disk segment m (v.firstSector d, bx.toNat)) :=
      v.holds_sector one here
    have further : At segment (bx + v.bytesPerCluster) (start + v.clusterSize) := by
      rw [advance, size]
      exact .next aligned here
    have untouched : v.FatLoaded entries (placeSector disk segment m (v.firstSector d, bx.toNat)) :=
      loaded.frame fun a inside => put.frame a (.inl (by omega))
    obtain ⟨m', reads, holds⟩ := ih validNext (fun e listed => others e (List.mem_cons_of_mem d listed)) linked
      untouched further (by omega) (by rw [size]; omega)
      (Nat.lt_of_succ_lt_succ enough)
    refine ⟨m', ?_, put.cons holds⟩
    rw [readClusterChain, loaded.getFatCluster_eq valid, entry]
    dsimp only
    rw [if_neg goesOn, advanced, readClusters_eq quiet (by omega) validNext (by omega)]
    exact reads

theorem loadsKernel_of_one (one : v.sectorsPerCluster = 1) : LoadsKernel v := by
  intro disk entries first rest m valid linked loaded room
  have size := v.clusterSize_one one
  have base : KernelStart.toNat = 0xB000 := rfl
  have validFirst := valid first List.mem_cons_self
  have put : v.Holds disk KernelStart.toNat [first] m
      (placeSector disk 0 m (v.firstSector first, KernelStart.toNat)) := v.holds_sector one rfl
  have untouched := loaded.frame fun a inside => put.frame a (.inl inside)
  have further : At 0 0xB200 (KernelStart.toNat + v.clusterSize) := by
    rw [size]
    exact ⟨rfl, rfl⟩
  have quiet : ∀ c : BiosRead, (fun _ => false) c = false := fun _ => rfl
  rw [List.length_cons, size, base] at room
  have enough : KernelStart.toNat + v.clusterSize + rest.length * v.clusterSize ≤ 2 ^ 20 := by
    rw [size, base]
    omega
  obtain ⟨m', reads, holds⟩ := v.readClusterChain_holds quiet one validFirst
    (fun d listed => valid d (List.mem_cons_of_mem first listed)) linked untouched further (Nat.le_add_right _ _) enough
    (Nat.lt_succ_self rest.length)
  refine ⟨rest.length + 1, m', ?_, put.cons holds⟩
  rw [Volume.continueLoadKernel, Volume.readClusters_eq quiet (Nat.succ_pos _) validFirst (by decide)]
  exact reads

/-- All that is read of a file of one cluster is the cluster's first sector. -/
theorem Volume.continueLoadKernel_single (quiet : ∀ c, int13 c = false) {fuel : Nat} (valid : v.Valid c)
    (mark : 0xFF8 ≤ entries c) (loaded : v.FatLoaded entries m)
    (run : v.continueLoadKernel disk int13 fuel (BitVec.ofNat 16 c) m = some (.loaded m')) :
    m' = placeSector disk 0 m (v.firstSector c, KernelStart.toNat) := by
  cases fuel with
  | zero => cases run
  | succ fuel =>
    have untouched : v.FatLoaded entries (placeSector disk 0 m (v.firstSector c, KernelStart.toNat)) := by
      apply loaded.frame
      intro a below
      exact placeSector_outside (.inl (Nat.lt_of_lt_of_le below (Nat.le_add_left _ _)))
    rw [continueLoadKernel, readClusters_eq quiet (Nat.succ_pos _) valid (by decide)] at run
    have stops : some (Outcome.loaded _) = some (Outcome.loaded m') :=
      (readClusterChain_mark valid mark untouched).symm.trans run
    exact (Outcome.loaded.inj (Option.some.inj stops)).symm

/-- With larger clusters the second sector of the first one is missing. -/
theorem not_loadsKernel (larger : 2 ≤ v.sectorsPerCluster.toNat) : ¬LoadsKernel v := by
  intro loads
  have some_ := v.fat12.1
  have byte : v.sectorsPerCluster.toNat < 256 := v.sectorsPerCluster.isLt
  have base : KernelStart.toNat = 0xB000 := rfl
  have size : v.clusterSize = 512 * v.sectorsPerCluster.toNat := rfl
  have valid : v.Valid 2 := ⟨by omega, by omega⟩
  have mark : (0xFF8 : BitVec 12) ≤ 0xFFF := by decide
  let m : Memory := fun a => if a < KernelStart.toNat then packed (fun _ => 0xFFF) (a - 0x2000) else 0
  have loaded : v.FatLoaded (fun _ => 0xFFF) m := by
    intro n inside
    have few := v.fat12.2
    dsimp only [m]
    rw [if_pos (by omega), Nat.add_sub_cancel_left]
  obtain ⟨fuel, m', run, holds⟩ := loads (fun _ _ => 1) (fun _ => 0xFFF) 2 [] m
    (fun c listed => List.mem_singleton.mp listed ▸ valid) mark loaded (by rw [List.length_singleton]; omega)
  have placed := Volume.continueLoadKernel_single (fun _ => rfl) valid mark loaded run
  have here : m' (KernelStart.toNat + 0 * v.clusterSize + 512) = 1 := holds.content 0 2 rfl 512 (by omega)
  have nothing : m' (KernelStart.toNat + 0 * v.clusterSize + 512) = 0 := by
    rw [placed, Nat.zero_mul, Nat.add_zero, placeSector_outside (.inr (by rw [Nat.mul_comm]; exact Nat.le_refl _))]
    exact if_neg (by rw [base]; omega)
  exact absurd (here.symm.trans nothing) (by decide)

/-- The loader loads every file of a volume exactly where the volume's clusters are single sectors. -/
theorem loadsKernel_iff (v : Volume) : LoadsKernel v ↔ v.sectorsPerCluster = 1 := by
  constructor
  · intro loads
    have positive := v.positive
    by_contra other
    have different : v.sectorsPerCluster.toNat ≠ 1 := fun same => other (BitVec.eq_of_toNat_eq same)
    exact not_loadsKernel (by omega) loads
  · exact loadsKernel_of_one

end places

/-- The volume that the boot sector's own BPB describes, with eight sectors to a cluster. -/
def bootVolume : Volume where
  bpb := { sectorsPerTrack := 17, heads := 4, hiddenSectors := 1, driveNumber := 0x80 }
  sectorsPerCluster := 8
  clusterBase := 49
  clusters := 2586
  geometry := { sectors := ⟨by decide, by decide⟩, heads := by decide }
  positive := by decide
  fat12 := ⟨by decide, by decide⟩
  addressable := by
    intro i inside
    have below : i < 49 + 8 * 2586 := inside
    constructor
    · change (1 + i) / 17 < 2 ^ 16
      omega
    · change (1 + i) / 17 / 4 < 1024
      omega
    · change (1 + i) / 17 % 4 < 256
      omega

/-- Seven of eight sectors of the first cluster are not read. -/
theorem bootVolume_not_loaded : ¬LoadsKernel bootVolume :=
  not_loadsKernel (by decide)

end Gr8os.Loader
