import Mathlib.Data.Nat.Prime.Basic
import Mathlib.Tactic.IntervalCases
import Gr8os.FsFat.Read

/-! When a read of a file on a FAT volume returns the bytes of the file that it was asked for. -/
namespace Gr8os.FsFat

open Bytes Gr8os.Cc

/-- A page holds as many clusters as its count says, unless the count has overflowed. -/
theorem clusters_of_divisor {size : Nat} (divides : size ∣ 4096) :
    (4096 / size % 256 ≠ 0 ↔ 16 < size) ∧ (16 < size → 4096 / size % 256 * size = 4096) := by
  have power : size ∣ 2 ^ 12 := divides
  obtain ⟨k, within, rfl⟩ := (Nat.dvd_prime_pow Nat.prime_two).mp power
  interval_cases k <;> decide

section pages

variable {checked : Bool} {vcb : Fsfatvcb} {disk : Nat → BitVec 8} {file : FatFile} {n : Nat}

theorem Mounted.geometry (mounted : Mounted vcb disk file n) :
    file.cache.cacheMap.clusterSize = vcb.clusterSize.toNat ∧
      (file.cache.cacheMap.clustersPerPage ≠ 0 ↔ 16 < vcb.clusterSize.toNat ∧ vcb.clusterSize.toNat < 4096) ∧
      (file.cache.cacheMap.clustersPerPage ≠ 0 → file.cache.cacheMap.Divided) := by
  obtain ⟨heap, file₀, file₁, begun, same⟩ := mounted.opened
  obtain ⟨notZero, divides, m, _, rfl⟩ := ccInitializeFileCaching_map begun
  rw [CacheMap.Divided, same.clusterSize, same.clustersPerPage]
  refine ⟨rfl, ?_⟩
  dsimp only [freshMap]
  by_cases smaller : vcb.clusterSize.toNat < pageSize
  · obtain ⟨counted, whole⟩ := clusters_of_divisor (Nat.dvd_of_mod_eq_zero (divides smaller))
    rw [if_pos smaller]
    exact ⟨counted.trans (iff_self_and.mpr fun _ => smaller), fun some => whole (counted.mp some)⟩
  · rw [if_neg smaller]
    exact ⟨⟨fun some => absurd rfl some, fun range => absurd range.2 smaller⟩, fun some => absurd rfl some⟩

/-- Clusters that are read, or that the chain does not reach, leave the page with a success. -/
theorem clustersStatus_whole {status : Nat → BitVec 32} {is : List Nat} {last : BitVec 32}
    (whole : ∀ i ∈ is, status i = Status.success.code ∨ status i = Status.endOfFile.code)
    (succeeds : succeeded last = true) : succeeded (clustersStatus status is last) = true := by
  induction is generalizing last with
  | nil => exact succeeds
  | cons i is ih =>
    have rest := @ih (status i) fun j member => whole j (List.mem_cons_of_mem _ member)
    unfold clustersStatus
    rcases whole i (List.mem_cons_self ..) with read | ended
    · have goes_on : ¬ status i = Status.endOfFile.code := by
        rw [read]
        decide
      have present : ¬ status i = Status.noMediaInDevice.code := by
        rw [read]
        decide
      rw [if_neg goes_on, if_neg present]
      exact rest (read ▸ (by decide : succeeded Status.success.code = true))
    · rw [if_pos ended]
      decide

variable {k : Resources} {failure : RawFailure}

theorem Mounted.page_succeeds (mounted : Mounted vcb disk file n) {p : Nat} (nonempty : 0 < n)
    (fits : (p + 1) * file.cache.cacheMap.clustersPerPage ≤ 4294967296)
    (clusters : file.cache.cacheMap.clustersPerPage ≠ 0)
    (chained : vcb.fatType = .fat16 → (p + 1) * file.cache.cacheMap.clustersPerPage ≤ n) :
    succeeded (pageStatus k (fsFatCallbacks checked vcb failure file.fcb) file.cache.cacheMap.clustersPerPage p) = true := by
  obtain ⟨read, reads⟩ := fsFatCallbacks_reads checked vcb failure file.fcb
  rw [← pageStatus_withUnset _ Status.success.code p clusters]
  unfold pageStatus
  rw [reads]
  apply clustersStatus_whole
  · intro i member
    have below := List.mem_range.mp member
    have within : p * file.cache.cacheMap.clustersPerPage + i < (p + 1) * file.cache.cacheMap.clustersPerPage := by
      rw [Nat.add_mul, Nat.one_mul]
      omega
    by_cases inside : p * file.cache.cacheMap.clustersPerPage + i < n
    · exact .inl (mounted.status reads inside (by omega))
    · refine .inr (mounted.status_past reads ?_ nonempty (Nat.le_of_not_gt inside) (by omega))
      intro type
      have := chained type
      omega
  · exact (by decide : succeeded Status.success.code = true)

/-- A page that is read with success holds the bytes that the driver finds for the file. -/
theorem Mounted.stored_eq (mounted : Mounted vcb disk file n) {i : Nat} (inside : i < file.fcb.fileSize.toNat)
    (clusters : file.cache.cacheMap.clustersPerPage ≠ 0)
    (read : succeeded (pageStatus k (fsFatCallbacks checked vcb failure file.fcb)
      file.cache.cacheMap.clustersPerPage (i / 4096)) = true) :
    stored k (fsFatCallbacks checked vcb failure file.fcb) () file.cache.cacheMap i =
      foundByte vcb file.fcb disk i := by
  obtain ⟨size, _, divided⟩ := mounted.geometry
  have all : AllRead (fsFatCallbacks checked vcb failure file.fcb) file.cache.cacheMap file.fcb.fileSize.toNat
      (i / 4096) := by
    intro read reads j _ within
    rw [size] at within
    have here := mounted.inside (j := 0) within
    rw [mounted.status reads here.1 here.2]
    decide
  have bytes := ccpActualReadPage_bytes (size ▸ mounted.serves failure) (divided clusters) all ()
    ((k.tempPage (i / 4096)).getD fun _ => 0) read (i % 4096) (Nat.mod_lt _ (by decide)) (by omega)
  have place : i / 4096 * 4096 + i % 4096 = i := Nat.div_add_mod' i 4096
  rw [place] at bytes
  exact bytes

end pages

/-- What a read request asks for: the bytes of the file from the offset on, as many as there are up to the size, and past the
end of the file the news of it. -/
def ReadsRight (V : Nat → BitVec 8) (fileSize offset size : Nat) (b : Buffer) : Option ReadResult → Prop
  | some (.completed status information (some t)) =>
    if offset < fileSize then
      succeeded status = true ∧ information.toNat = min size (fileSize - offset) ∧
        t.buffer = memcpy b 0 V offset (min size (fileSize - offset))
    else status = Status.endOfFile.code ∧ information = 0
  | _ => False

/-- A read that ends with a page from the volume. -/
structure PageEnds (checked : Bool) (k : Resources) (vcb : Fsfatvcb) (failure : RawFailure) (file : FatFile) (n : Nat)
    (r : Request) (stop p : Nat) : Prop where
  allocated : (k.tempPage p).isSome = true
  clusterSize : 16 < vcb.clusterSize.toNat ∧ vcb.clusterSize.toNat < 4096
  chained : vcb.fatType = .fat16 → n < (p + 1) * file.cache.cacheMap.clustersPerPage →
    succeeded (pageStatus k (fsFatCallbacks checked vcb failure file.fcb) file.cache.cacheMap.clustersPerPage p) = true
  stops : stop = min (r.position + r.size) ((p + 1) * 4096)
  left : stop = r.position + r.size ∨ 2 ^ 31 ≤ r.position + r.size - stop

/-- A range that begins in the file, and that is read in one go: its pages have copies, or the first that has none is the
last that is read, where the range or the file ends. -/
structure OneGo (checked : Bool) (k : Resources) (vcb : Fsfatvcb) (failure : RawFailure) (disk : Nat → BitVec 8)
    (file : FatFile) (n : Nat) (r : Request) : Prop where
  inside : r.position < file.fcb.fileSize.toNat
  asserted : checked = true → r.size < 20 * pageSize
  ends : (∀ p, r.pageNumber ≤ p → p ≤ r.last → ¬ FromStore file.cache r p) ∧
      r.position + r.size ≤ file.fcb.fileSize.toNat ∨
    ∃ p, FirstTaken file.cache r p ∧
      PageEnds checked k vcb failure file n r (min (r.position + r.size) file.fcb.fileSize.toNat) p
  bytes : ∀ i, r.position ≤ i → i < min (r.position + r.size) file.fcb.fileSize.toNat →
    shown (foundByte vcb file.fcb disk) file.cache r i = fileByte vcb file.fcb disk i

/-- The request with another buffer. -/
def ReadIrp.withBuffer (irp : ReadIrp) (b : Buffer) : ReadIrp := { irp with systemBuffer := b, userBuffer := b }

section requests

variable {checked : Bool} {k : Resources} {vcb : Fsfatvcb} {failure : RawFailure} {disk : Nat → BitVec 8} {file : FatFile}
  {n : Nat} {r : Request} {stop p : Nat}

/-- The last page of a request is far below what the numbers of clusters can tell. -/
theorem Mounted.page_fits (mounted : Mounted vcb disk file n) (clusters : file.cache.cacheMap.clustersPerPage ≠ 0)
    (place : r.position < 4294967296) (size : r.size < 4294967296) (below : p ≤ r.last) :
    (p + 1) * file.cache.cacheMap.clustersPerPage ≤ 4294967296 := by
  obtain ⟨same, some, divided⟩ := mounted.geometry
  have whole := divided clusters
  have more := (some.mp clusters).1
  unfold CacheMap.Divided at whole
  rw [same] at whole
  have few : file.cache.cacheMap.clustersPerPage * 16 ≤ 4096 := by
    rw [← whole]
    exact Nat.mul_le_mul_left _ (Nat.le_of_lt more)
  have low : p + 1 ≤ 2097153 := by
    unfold Request.last at below
    omega
  calc (p + 1) * file.cache.cacheMap.clustersPerPage
    _ ≤ 2097153 * 256 := Nat.mul_le_mul low (by omega)
    _ ≤ 4294967296 := by decide

theorem Mounted.pageEnds_iff (mounted : Mounted vcb disk file n) (nonempty : 0 < n) (place : r.position < 4294967296)
    (size : r.size < 4294967296) (below : p ≤ r.last) :
    EndsWith k (fsFatCallbacks checked vcb failure file.fcb) file.cache r stop p ↔
      PageEnds checked k vcb failure file n r stop p := by
  have some := mounted.geometry.2.1
  constructor
  · rintro ⟨allocated, clusters, read, stops, left⟩
    exact ⟨allocated, some.mp clusters, fun _ _ => read, stops, left⟩
  · rintro ⟨allocated, clusters, chained, stops, left⟩
    have counted := some.mpr clusters
    refine ⟨allocated, counted, ?_, stops, left⟩
    by_cases past : vcb.fatType = .fat16 ∧ n < (p + 1) * file.cache.cacheMap.clustersPerPage
    · exact chained past.1 past.2
    · exact mounted.page_succeeds nonempty (mounted.page_fits counted place size below) counted fun type =>
        Nat.le_of_not_gt fun more => past ⟨type, more⟩

/-- What the cache shows is what the driver finds, up to the page that the read ends with. -/
theorem Mounted.shown_eq (mounted : Mounted vcb disk file n)
    (ends : (∀ p, r.pageNumber ≤ p → p ≤ r.last → ¬ FromStore file.cache r p) ∨
      ∃ p, FirstTaken file.cache r p ∧ EndsWith k (fsFatCallbacks checked vcb failure file.fcb) file.cache r stop p)
    (within : stop ≤ file.fcb.fileSize.toNat) {i : Nat} (above : r.position ≤ i) (before : i < stop)
    (below : i < r.position + r.size) :
    shown (stored k (fsFatCallbacks checked vcb failure file.fcb) () file.cache.cacheMap) file.cache r i =
      shown (foundByte vcb file.fcb disk) file.cache r i := by
  obtain ⟨first, last⟩ := Request.touches above below
  by_cases taken : FromStore file.cache r (i / 4096)
  · rw [shown_taken taken, shown_taken taken]
    rcases ends with none | ⟨p, begins, ends⟩
    · exact absurd taken (none _ first last)
    · have page : i / 4096 = p := by
        have stops := ends.stops
        have least : ¬ i / 4096 < p := fun less => begins.before _ first less taken
        omega
      exact mounted.stored_eq (by omega) ends.clusters (page ▸ ends.read)
  · have copied : file.cache.cacheMap.copyOf (i / 4096) ≠ none := fun missing => taken (.inl missing)
    obtain ⟨page, copy⟩ := Option.ne_none_iff_exists'.mp copied
    have cached : ¬ (file.cache.readThrough = true ∧ i / 4096 = r.pageNumber) := fun through => taken (.inr through)
    unfold shown
    rw [if_neg cached, if_neg cached, CacheMap.view_some copy, CacheMap.view_some copy]

/-- A read of an open file inside it comes down to a read of the cache up to where the range or the file ends. -/
theorem Mounted.oneGo_iff (checked : Bool) (k : Resources) (failure : RawFailure) (mounted : Mounted vcb disk file n)
    (place : r.position < 4294967296)
    (size : r.size < 4294967296) (inside : r.position < file.fcb.fileSize.toNat) :
    ReadsUpTo checked k (fsFatCallbacks checked vcb failure file.fcb) () file.cache r (fileByte vcb file.fcb disk)
        (min (r.position + r.size) file.fcb.fileSize.toNat) ↔
      OneGo checked k vcb failure disk file n r := by
  have nonempty : 0 < n := by
    have covers := mounted.covers
    by_contra none
    have zero : n = 0 := by omega
    rw [zero, Nat.zero_mul] at covers
    omega
  have whole : min (r.position + r.size) file.fcb.fileSize.toNat = r.position + r.size ↔
      r.position + r.size ≤ file.fcb.fileSize.toNat := by omega
  have pages (p : Nat) : FirstTaken file.cache r p ∧ EndsWith k (fsFatCallbacks checked vcb failure file.fcb) file.cache r
        (min (r.position + r.size) file.fcb.fileSize.toNat) p ↔
      FirstTaken file.cache r p ∧
        PageEnds checked k vcb failure file n r (min (r.position + r.size) file.fcb.fileSize.toNat) p :=
    and_congr_right fun first => mounted.pageEnds_iff nonempty place size first.below
  constructor
  · rintro ⟨asserted, ends, bytes⟩
    refine ⟨inside, asserted, ?_, ?_⟩
    · simpa only [whole, pages] using ends
    · intro i above before
      rw [← mounted.shown_eq (ends.imp_left And.left) (Nat.min_le_right ..) above before (by omega)]
      exact bytes i above before
  · rintro ⟨_, asserted, ends, bytes⟩
    rw [← whole] at ends
    simp only [← pages] at ends
    refine ⟨asserted, ends, ?_⟩
    intro i above before
    rw [mounted.shown_eq (ends.imp_left And.left) (Nat.min_le_right ..) above before (by omega)]
    exact bytes i above before

theorem withBuffer_buffer {irp : ReadIrp} (buffered : irp.bufferedIo = true ∨ irp.neitherIo = true) (b : Buffer) :
    (irp.withBuffer b).buffer = some b := by
  unfold ReadIrp.buffer ReadIrp.withBuffer
  dsimp only
  split
  · rfl
  · rename_i unbuffered
    rw [if_pos (buffered.resolve_left unbuffered)]

theorem Mounted.read_eq (mounted : Mounted vcb disk file n) {irp : ReadIrp}
    (buffered : irp.bufferedIo = true ∨ irp.neitherIo = true) (b : Buffer) :
    fsFatRead checked k vcb failure false file (irp.withBuffer b) =
      (ccCacheReadFile checked k (fsFatCallbacks checked vcb failure file.fcb) () file.cache (readOffset file irp)
        b irp.bufferLength 0).map fun (status, t) => .completed status t.nBytes (some t) := by
  unfold fsFatRead
  rw [if_neg Bool.false_ne_true, if_neg mounted.named, withBuffer_buffer buffered, Option.bind_some]
  rfl

/-- Inside the file a request is answered as it should be if the cache returns the bytes up to where the range or the file
ends. -/
theorem readsRight_iff {V : Nat → BitVec 8} {fileSize : Nat} {offset length : BitVec 32} {b : Buffer}
    (inside : offset.toNat < fileSize) (outcome : Option (BitVec 32 × Transfer)) :
    ReadsRight V fileSize offset.toNat length.toNat b
        (outcome.map fun (status, t) => .completed status t.nBytes (some t)) ↔
      ∃ res, outcome = some res ∧
        Returned V (Request.start offset length) (min (offset.toNat + length.toNat) fileSize) b res := by
  have place := Request.start_position offset length
  have count : min (offset.toNat + length.toNat) fileSize - (Request.start offset length).position =
      min length.toNat (fileSize - offset.toNat) := by omega
  have buffer : (Request.start offset length).buffer = 0 := rfl
  cases outcome with
  | none =>
    constructor
    · exact False.elim
    · rintro ⟨res, impossible, _⟩
      cases impossible
  | some res =>
    show (if offset.toNat < fileSize then _ else _) ↔ _
    rw [if_pos inside, ← count, ← place]
    constructor
    · rintro ⟨succeeds, nBytes, bytes⟩
      exact ⟨res, rfl, succeeds, nBytes, bytes⟩
    · rintro ⟨res', same, succeeds, nBytes, bytes⟩
      cases same
      exact ⟨succeeds, nBytes, bytes⟩

theorem Mounted.end_untold (mounted : Mounted vcb disk file n) {irp : ReadIrp}
    (buffered : irp.bufferedIo = true ∨ irp.neitherIo = true)
    (past : file.fcb.fileSize.toNat ≤ (readOffset file irp).toNat) (other : k.unset ≠ Status.endOfFile.code)
    (V : Nat → BitVec 8) (b : Buffer) :
    ¬ ReadsRight V file.fcb.fileSize.toNat (readOffset file irp).toNat irp.bufferLength.toNat b
      (fsFatRead checked k vcb failure false file (irp.withBuffer b)) := by
  rw [mounted.read_eq buffered]
  generalize outcome_eq : ccCacheReadFile checked k (fsFatCallbacks checked vcb failure file.fcb) () file.cache
    (readOffset file irp) b irp.bufferLength 0 = outcome
  intro answered
  cases outcome with
  | none => exact answered
  | some res =>
    have told : res.1 = Status.endOfFile.code ∧ res.2.nBytes = 0 := (if_neg (Nat.not_lt.mpr past)).mp answered
    exact ccCacheReadFile_told other outcome_eq told.1

/-- A read request does what it says, whatever the caller's buffer and an unset variable hold. -/
theorem fsFatRead_exact {irp : ReadIrp} (mounted : Mounted vcb disk file n)
    (buffered : irp.bufferedIo = true ∨ irp.neitherIo = true) :
    (∀ unset b, ReadsRight (fileByte vcb file.fcb disk) file.fcb.fileSize.toNat (readOffset file irp).toNat
      irp.bufferLength.toNat b
      (fsFatRead checked (k.withUnset unset) vcb failure false file (irp.withBuffer b))) ↔
    OneGo checked k vcb failure disk file n (Request.start (readOffset file irp) irp.bufferLength) := by
  have place := Request.start_position (readOffset file irp) irp.bufferLength
  have size : (Request.start (readOffset file irp) irp.bufferLength).size = irp.bufferLength.toNat := rfl
  have bound := (readOffset file irp).isLt
  have bound' := irp.bufferLength.isLt
  obtain ⟨read, reads⟩ := fsFatCallbacks_reads checked vcb failure file.fcb
  by_cases inside : (readOffset file irp).toNat < file.fcb.fileSize.toNat
  · have once := mounted.oneGo_iff checked k failure
      (r := Request.start (readOffset file irp) irp.bufferLength) (by omega) (by omega) (by omega)
    rw [place, size] at once
    simp only [mounted.read_eq buffered]
    rw [← once, ← ccCacheReadFile_exact reads (by omega)]
    exact forall_congr' fun unset => forall_congr' fun b => readsRight_iff inside _
  · constructor
    · intro right
      exact absurd (right 0 fun _ => 0)
        (mounted.end_untold buffered (Nat.le_of_not_gt inside) (by decide : (0 : BitVec 32) ≠ _) _ _)
    · intro once
      exact absurd (place ▸ once.inside) inside

end requests

/-! A floppy disk with a file of two clusters, and nothing of it in the cache. -/

def floppyDisk : Nat → BitVec 8 := BitVec.ofNat 8

def floppyVolume : Fsfatvcb :=
  { floppy with
    cluster2StartSector := 33
    rawFileObject := fun offset _ => some fun j => floppyDisk (offset.toNat + j) }

def floppyFile : FatFile where
  relativeFileNameLength := 24
  currentOffset := 0
  fcb := { startCluster := 2, startClusterHigh := 0, fileSize := 700 }
  cache := { readThrough := false, writeThrough := false, cacheMap := freshMap 512 minCachedPages }

def neverFails : RawFailure where
  status _ := Status.success.code
  buffer _ b := b

theorem floppyFile_mounted : Mounted floppyVolume floppyDisk floppyFile 2 where
  named := by decide
  clusterSize := by decide
  clusters := by decide
  ended _ := by decide
  loaded _ := by decide
  covers := by decide
  readable i _ := ⟨_, rfl, fun _ _ => rfl⟩
  opened := ⟨fun _ => true, floppyFile.cache, floppyFile.cache, rfl, .refl _⟩

/-- Nothing of the file is in the cache: the first page of a range is taken. -/
theorem floppyFile_taken (r : Request) : FirstTaken floppyFile.cache r r.pageNumber where
  above := Nat.le_refl _
  below := r.page_le_last
  taken := .inl (freshMap_copyOf 512 minCachedPages _)
  before _ above below := absurd below (Nat.not_lt.mpr above)

/-- The whole file, in one request. -/
def wholeFile : ReadIrp where
  bufferLength := 700
  offset := 0

theorem wholeFile_oneGo : OneGo true enough floppyVolume neverFails floppyDisk floppyFile 2
    (Request.start 0 700) where
  inside := by decide
  asserted _ := by decide
  ends := .inr ⟨0, floppyFile_taken _, rfl, by decide, by decide, by decide, .inl (by decide)⟩
  bytes i _ below := by
    have nothing : FromStore floppyFile.cache (Request.start 0 700) (i / 4096) :=
      .inl (freshMap_copyOf 512 minCachedPages _)
    have inside : i / 512 < 2 := by
      have : i < 700 := Nat.lt_of_lt_of_le below (by decide)
      omega
    have clusters : ∀ c < 2, 2 ≤ (floppyVolume.clusterAt floppyFile.fcb.chainHead c).toNat ∧
        clusterAddress floppyVolume (floppyVolume.clusterAt floppyFile.fcb.chainHead c) < 4294967296 := by decide
    rw [shown_taken nothing]
    exact foundByte_eq floppyDisk (clusters _ inside).1 (clusters _ inside).2

theorem wholeFile_exact : ReadsRight (fileByte floppyVolume floppyFile.fcb floppyDisk) 700 0 700 (fun _ => 0)
    (fsFatRead true (enough.withUnset 0) floppyVolume neverFails false floppyFile (wholeFile.withBuffer fun _ => 0)) :=
  (fsFatRead_exact floppyFile_mounted (.inl rfl)).mpr wholeFile_oneGo 0 fun _ => 0

/-- A request for one byte where the file ends. -/
def endOfFile : ReadIrp where
  bufferLength := 1
  offset := 700

theorem endOfFile_read : Mounted floppyVolume floppyDisk floppyFile 2 ∧
    (∃ status information t, fsFatRead true enough floppyVolume neverFails false floppyFile endOfFile =
      some (.completed status information (some t)) ∧ succeeded status = true ∧ information.toNat = 1) ∧
    ¬ ∀ unset b, ReadsRight (fileByte floppyVolume floppyFile.fcb floppyDisk) 700 700 1 b
      (fsFatRead true (enough.withUnset unset) floppyVolume neverFails false floppyFile (endOfFile.withBuffer b)) := by
  refine ⟨floppyFile_mounted, ?_, ?_⟩
  · let callbacks := fsFatCallbacks true floppyVolume neverFails floppyFile.fcb
    have found : ReadsUpTo true enough callbacks () floppyFile.cache (Request.start 700 1)
        (shown (stored enough callbacks () floppyFile.cache.cacheMap) floppyFile.cache (Request.start 700 1)) 701 :=
      ⟨fun _ => by decide, .inr ⟨0, floppyFile_taken _, rfl, by decide, by decide, by decide, .inl (by decide)⟩,
        fun _ _ _ => rfl⟩
    obtain ⟨res, ends, returned⟩ := (ccCacheReadFile_exact rfl (by decide)).mpr found 0 fun _ => 0
    exact ⟨res.1, res.2.nBytes, res.2, congrArg (Option.map _) ends, returned.succeeds, returned.nBytes⟩
  · intro right
    exact floppyFile_mounted.end_untold (.inl rfl) (by decide) (by decide : (0 : BitVec 32) ≠ _) _ _ (right 0 fun _ => 0)

end Gr8os.FsFat
