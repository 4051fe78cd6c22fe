import Gr8os.Lib.Run
import Gr8os.Cc.Purge

/-! Reads, writes and purges of one file in any order: a read returns the bytes of the last successful writes. -/
namespace Gr8os.Cc

open Bytes Runs

section Sessions

variable {σ : Type}

/-- The routines of a driver during one call, which keep their promises to the cache. -/
structure Driver (byte : σ → Nat → BitVec 8) (clusterSize size : Nat) where
  callbacks : Callbacks σ
  serves : Serves callbacks byte clusterSize size

/-- A stretch of bytes inside the file. -/
structure Range (size : Nat) where
  offset : BitVec 32
  length : BitVec 32
  inside : offset.toNat + length.toNat ≤ size

inductive CacheOp (byte : σ → Nat → BitVec 8) (clusterSize size : Nat)
  | read (k : Resources) (driver : Driver byte clusterSize size) (range : Range size) (buffer : Buffer)
      (nBytes : BitVec 32)
  | write (k : Resources) (driver : Driver byte clusterSize size) (range : Range size) (buffer : Buffer)
      (nBytes : BitVec 32)
  | purge (k : Resources) (driver : Driver byte clusterSize size)

/-- A cached file, its backing store, and what the successful writes so far have made of its bytes. -/
structure Session (σ : Type) where
  file : File
  store : σ
  written : Nat → BitVec 8

variable {byte : σ → Nat → BitVec 8} {clusterSize size : Nat}

def Session.withMap (t : Session σ) (m : CacheMap) : Session σ := { t with file := { t.file with cacheMap := m } }

def cacheStep (checked : Bool) (t : Session σ) : CacheOp byte clusterSize size → Option (Session σ)
  | .read k driver range buffer nBytes =>
    (ccCacheReadFile checked k driver.callbacks t.store t.file range.offset buffer range.length nBytes).map fun res =>
      t.withMap res.2.cacheMap
  | .write k driver range buffer nBytes =>
    (ccCacheWriteFile checked k driver.callbacks t.store t.file range.offset buffer range.length nBytes).map fun res =>
      { t.withMap res.2.cacheMap with
        written := if succeeded res.1 then memcpy t.written range.offset.toNat buffer 0 range.length.toNat
          else t.written }
  | .purge k driver =>
    let (_, file, store) := ccPurgeCacheFile k driver.callbacks t.store t.file
    some { t with file := file, store := store }

/-- The calls that meet none of the cache's slips. -/
def CacheSafe (checked : Bool) (t : Session σ) : CacheOp byte clusterSize size → Prop
  | .read k driver range _ _ =>
    ReadSafe checked k driver.callbacks (byte t.store) size t.file (Request.start range.offset range.length)
  | .write k driver range _ _ =>
    WriteSafe checked k driver.callbacks size t.file (Request.start range.offset range.length)
  | .purge .. => True

/-- A read that succeeds returns at each byte the last value written to it. -/
def ReadsBack (checked : Bool) (t : Session σ) : CacheOp byte clusterSize size → Prop
  | .read k driver range buffer nBytes => ∀ res,
    ccCacheReadFile checked k driver.callbacks t.store t.file range.offset buffer range.length nBytes = some res →
    succeeded res.1 = true → ∀ j, j < range.length.toNat → res.2.buffer j = t.written (range.offset.toNat + j)
  | _ => True

/-- The cache shows what was written. -/
structure Coherent (byte : σ → Nat → BitVec 8) (clusterSize size : Nat) (t : Session σ) : Prop where
  clusterSize : t.file.cacheMap.clusterSize = clusterSize
  divided : t.file.cacheMap.Divided
  sound : t.file.cacheMap.used ≤ t.file.cacheMap.cachedPages
  unique : t.file.cacheMap.Unique
  shows : ∀ i, i < size → t.file.cacheMap.view (byte t.store) i = t.written i

theorem Coherent.serves {t : Session σ} (coherent : Coherent byte clusterSize size t)
    (driver : Driver byte clusterSize size) :
    Serves driver.callbacks byte t.file.cacheMap.clusterSize size := coherent.clusterSize.symm ▸ driver.serves

theorem Coherent.grown {touched : Nat → Prop} {t t' : Session σ} (coherent : Coherent byte clusterSize size t)
    (grown : Grown touched t.file.cacheMap t'.file.cacheMap)
    (shows : ∀ i, i < size → t'.file.cacheMap.view (byte t'.store) i = t'.written i) :
    Coherent byte clusterSize size t' where
  clusterSize := grown.clusterSize.trans coherent.clusterSize
  divided := by
    unfold CacheMap.Divided
    rw [grown.clusterSize, grown.clustersPerPage]
    exact coherent.divided
  sound := grown.sound coherent.sound
  unique := grown.unique coherent.unique
  shows := shows

theorem cacheStep_coherent {checked : Bool} {t t' : Session σ} {op : CacheOp byte clusterSize size}
    (coherent : Coherent byte clusterSize size t) (safe : CacheSafe checked t op)
    (step : cacheStep checked t op = some t') : Coherent byte clusterSize size t' := by
  cases op with
  | read k driver range buffer nBytes =>
    obtain ⟨res, ends, rfl⟩ := Option.map_eq_some_iff.mp step
    have read := ccCacheReadFile_spec (coherent.serves driver) coherent.divided coherent.shows range.inside safe ends
    exact coherent.grown read.grown read.agrees
  | write k driver range buffer nBytes =>
    obtain ⟨res, ends, rfl⟩ := Option.map_eq_some_iff.mp step
    have written := ccCacheWriteFile_spec (coherent.serves driver) coherent.divided coherent.sound coherent.shows safe ends
    apply coherent.grown written.grown
    intro i inside
    have shown := written.view i inside
    rw [Request.start_position] at shown
    split
    · rename_i succeeds
      rw [if_pos succeeds] at shown
      exact shown
    · rename_i fails
      rw [if_neg fails] at shown
      exact shown
  | purge k driver =>
    cases Option.some.inj step
    constructor
    · exact coherent.clusterSize
    · exact coherent.divided
    · exact Nat.le_trans (Nat.le_of_eq ccPurgeCacheFile_used) coherent.sound
    · exact ccPurgeCacheFile_unique coherent.unique
    · intro i inside
      rw [← coherent.shows i inside]
      exact ccPurgeCacheFile_view (coherent.serves driver) coherent.divided i

/-- The map that a file begins with, of so many free slots. -/
def freshMap (clusterSize n : Nat) : CacheMap where
  cachedPages := 0
  clusterSize := clusterSize
  clustersPerPage := pageSize / clusterSize % 256
  shouldRebuild := 0
  pageCacheMap := List.replicate n {}

/-- A file that is opened with a map has one of free slots; clusters that fill a page are not counted. -/
theorem ccInitializeFileCaching_map {heap : Nat → Bool} {file file₀ : File}
    (begun : ccInitializeFileCaching heap file clusterSize = some (Status.success.code, file₀)) :
    clusterSize ≠ 0 ∧ (clusterSize < pageSize → pageSize % clusterSize = 0) ∧
      ∃ n ≤ minCachedPages, file₀ = { file with cacheMap := { freshMap clusterSize n with
        clustersPerPage := if clusterSize < pageSize then pageSize / clusterSize % 256 else 0 } } := by
  have invalid : Status.invalidParameter.code ≠ Status.success.code := by decide
  have insufficient : Status.insufficientResources.code ≠ Status.success.code := by decide
  unfold ccInitializeFileCaching at begun
  dsimp only at begun
  split at begun
  · cases begun
  · rename_i notZero
    split at begun
    · exact absurd (congrArg Prod.fst (Option.some.inj begun)) invalid
    · rename_i divides
      refine ⟨notZero, fun smaller => Decidable.byContradiction fun rest => divides ⟨smaller, rest⟩, ?_⟩
      split at begun
      · exact absurd (congrArg Prod.fst (Option.some.inj begun)) insufficient
      · split at begun
        · split at begun
          · exact ⟨minCachedPages, Nat.le_refl _, (congrArg Prod.snd (Option.some.inj begun)).symm⟩
          · exact absurd (congrArg Prod.fst (Option.some.inj begun)) insufficient
        · exact ⟨0, Nat.zero_le _, (congrArg Prod.snd (Option.some.inj begun)).symm⟩

theorem ccInitializeFileCaching_success {heap : Nat → Bool} {file file₀ : File} (smaller : clusterSize < pageSize)
    (begun : ccInitializeFileCaching heap file clusterSize = some (Status.success.code, file₀)) :
    pageSize % clusterSize = 0 ∧ ∃ n, file₀ = { file with cacheMap := freshMap clusterSize n } := by
  obtain ⟨_, divides, n, _, rfl⟩ := ccInitializeFileCaching_map begun
  rw [if_pos smaller]
  exact ⟨divides smaller, n, rfl⟩

theorem freshMap_copyOf (clusterSize n p : Nat) : (freshMap clusterSize n).copyOf p = none := by
  apply List.find?_eq_none.mpr
  intro page member
  have holds : ({} : CachedPage).holds p = false := rfl
  rw [List.eq_of_mem_replicate member, holds]
  decide

theorem ccInitializeFileCaching_coherent {heap : Nat → Bool} {file file₀ : File} {store : σ}
    (geometry : 16 < clusterSize ∧ clusterSize < pageSize)
    (begun : ccInitializeFileCaching heap file clusterSize = some (Status.success.code, file₀)) :
    Coherent byte clusterSize size ⟨file₀, store, byte store⟩ := by
  obtain ⟨divides, n, rfl⟩ := ccInitializeFileCaching_success geometry.2 begun
  have blank : ({} : CachedPage).cached = false := rfl
  constructor
  · rfl
  · -- The count of clusters is kept in a byte.
    have fits : pageSize / clusterSize < 256 := by
      rw [Nat.div_lt_iff_lt_mul (by omega)]
      unfold pageSize
      omega
    show pageSize / clusterSize % 256 * clusterSize = 4096
    rw [Nat.mod_eq_of_lt fits]
    exact Nat.div_mul_cancel (Nat.dvd_of_mod_eq_zero divides)
  · show (List.replicate n ({} : CachedPage)).countP _ ≤ 0
    rw [List.countP_replicate, blank]
    exact Nat.le_refl 0
  · intro p
    have holds : ({} : CachedPage).holds p = false := rfl
    show (List.replicate n ({} : CachedPage)).countP _ ≤ 1
    rw [List.countP_replicate, holds]
    exact Nat.zero_le 1
  · intro i _
    exact CacheMap.view_none (freshMap_copyOf clusterSize n _)

/-- In a run of calls that meet none of the cache's slips, every read that succeeds returns at each byte the value
of the last successful write to it, or the backing store's initial byte. -/
theorem read_your_writes {checked : Bool} {heap : Nat → Bool} {file file₀ : File} {store : σ} {t : Session σ}
    {ops : List (CacheOp byte clusterSize size)} {op : CacheOp byte clusterSize size}
    (geometry : 16 < clusterSize ∧ clusterSize < pageSize)
    (begun : ccInitializeFileCaching heap file clusterSize = some (Status.success.code, file₀))
    (run : Run (Guarded (CacheSafe checked) fun t op t' => cacheStep checked t op = some t')
      ⟨file₀, store, byte store⟩ ops t)
    (safe : CacheSafe checked t op) : ReadsBack checked t op := by
  have coherent : Coherent byte clusterSize size t := by
    refine run.invariant ?_ (ccInitializeFileCaching_coherent geometry begun)
    intro t op t' coherent step
    exact cacheStep_coherent coherent step.1 step.2
  cases op with
  | read k driver range buffer nBytes =>
    intro res ends succeeds j below
    have read := ccCacheReadFile_spec (coherent.serves driver) coherent.divided coherent.shows range.inside safe ends
    have start : (Request.start range.offset range.length).buffer = 0 := rfl
    have length : (Request.start range.offset range.length).size = range.length.toNat := rfl
    rw [read.buffer succeeds, start, length, Request.start_position,
      memcpy_inside (Nat.zero_le j) (by omega), Nat.sub_zero]
  | write => trivial
  | purge => trivial

end Sessions

/-! A file of one page whose driver keeps its bytes in memory and never fails. -/

def memoryCallbacks : Callbacks Buffer where
  actualRead := some { status := fun _ => Status.success.code, bytes := fun s c _ j => s (c * 512 + j) }
  actualWrite := some { status := fun _ => Status.success.code, store := fun s c b => memcpy s (c * 512) b 0 512 }

def memoryDriver : Driver (id : Buffer → Buffer) 512 4096 where
  callbacks := memoryCallbacks
  serves := {
    read := by
      intro r reads c _ s b j _ _
      cases Option.some.inj reads
      rfl
    ended := by
      intro r reads c ended
      cases Option.some.inj reads
      have different : ¬ Status.success.code = Status.endOfFile.code := by decide
      exact absurd ended different
    write := by
      intro w writes c _ s b j below _
      cases Option.some.inj writes
      show memcpy s (c * 512) b 0 512 (c * 512 + j) = b j
      rw [memcpy_inside (Nat.le_add_right ..) (Nat.add_lt_add_left below _)]
      congr 1
      omega
    other := by
      intro w writes c s b i outside
      cases Option.some.inj writes
      exact memcpy_outside outside }

def enough : Resources where
  tempPage _ := some fun _ => 0
  cachedPage _ := true
  heap _ := true
  unset := 0

def firstByte : Range 4096 := ⟨0, 1, by decide⟩

def opened (readThrough writeThrough : Bool) : File := ⟨readThrough, writeThrough, freshMap 512 32⟩

def began (readThrough writeThrough : Bool) : Session Buffer := ⟨opened readThrough writeThrough, fun _ => 0, fun _ => 0⟩

/-- A byte 1 written to a file of zeros. -/
def writeOne : CacheOp (id : Buffer → Buffer) 512 4096 := .write enough memoryDriver firstByte (fun _ => 1) 0

def readOne : CacheOp (id : Buffer → Buffer) 512 4096 := .read enough memoryDriver firstByte (fun _ => 0) 0

theorem repeatRead_missing {writeOperation : Bool} {r : Request} {t : Transfer}
    (missing : t.cacheMap.pageCacheMap.findIdx? (CachedPage.holds r.pageNumber) = none) :
    repeatRead writeOperation r t = (Status.notFound.code, r, t) := by
  rw [repeatRead]
  simp only [missing]

theorem ccpActual_once {k : Resources} {piece : Request → Buffer → Transfer → BitVec 32 × Transfer}
    {writeOperation : Bool} {r : Request} {t : Transfer} (short : ¬ r.More) :
    ccpActual k piece writeOperation r t = (k.tempPage r.pageNumber).map fun tempPage => piece r tempPage t := by
  rw [ccpActual]
  cases k.tempPage r.pageNumber with
  | none => rfl
  | some tempPage => simp only [dif_neg short, Option.map_some]

theorem repeatRead_once {writeOperation : Bool} {r : Request} {t : Transfer} {i : Nat}
    (found : t.cacheMap.pageCacheMap.findIdx? (CachedPage.holds r.pageNumber) = some i) (short : r.size ≤ r.readpart) :
    repeatRead writeOperation r t = (Status.success.code, r, markModified writeOperation i
      (copyPiece writeOperation r i (t.cacheMap.pageCacheMap.getD i {}) r.size t)) := by
  rw [repeatRead]
  simp only [found, short, if_true]

/-- What the write makes of the empty cache: the page is put into the first slot. -/
def wroteOne : BitVec 32 × Transfer :=
  writePiece enough memoryCallbacks (fun _ => 0) (Request.start 0 1) (fun _ => 0) ⟨freshMap 512 32, fun _ => 1, 0⟩

def holdingOne (readThrough : Bool) : Session Buffer where
  file := ⟨readThrough, false, countRebuild wroteOne.2.cacheMap⟩
  store := fun _ => 0
  written := memcpy (fun _ => 0) 0 (fun _ => 1) 0 1

theorem writeOne_ends (readThrough : Bool) :
    ccCacheWriteFile true enough memoryCallbacks (fun _ => 0) (opened readThrough false) 0 (fun _ => 1) 1 0 =
      some (Status.cached.code, { wroteOne.2 with cacheMap := countRebuild wroteOne.2.cacheMap }) := by
  have missing : ccpFindAndReadWrite true (Request.start 0 1) ⟨freshMap 512 32, fun _ => 1, 0⟩ =
      (Status.notFound.code, Request.start 0 1, ⟨freshMap 512 32, fun _ => 1, 0⟩) := repeatRead_missing rfl
  have one_page : ¬ (Request.start 0 1).More := by decide
  have transfer : ccCacheWriteFile true enough memoryCallbacks (fun _ => 0) (opened readThrough false) 0 (fun _ => 1) 1 0 =
      afterSearch (ccpActualWrite enough memoryCallbacks fun _ => 0)
        (Status.notFound.code, Request.start 0 1, ⟨freshMap 512 32, fun _ => 1, 0⟩) := missing ▸ rfl
  rw [transfer, afterSearch, if_pos rfl, ccpActualWrite, ccpActual_once one_page]
  rfl

theorem writeOne_step (readThrough : Bool) :
    cacheStep true (began readThrough false) writeOne = some (holdingOne readThrough) := by
  show (ccCacheWriteFile true enough memoryCallbacks (fun _ => 0) (opened readThrough false) 0 (fun _ => 1) 1 0).map _ = _
  rw [writeOne_ends]
  rfl

theorem memory_honest (m : CacheMap) (size p : Nat) : Honest enough memoryCallbacks m size p := by
  intro _ r reads i _ _
  cases Option.some.inj reads
  exact (by decide : succeeded Status.success.code = true)

theorem writeOne_safe : CacheSafe true (began false false) writeOne := by
  refine ⟨Or.inl ⟨?_, Or.inl (by decide), fun through => Bool.noConfusion through⟩, Or.inl rfl⟩
  intro p _ below _
  have first : p = 0 := Nat.le_zero.mp below
  exact ⟨memory_honest _ _ _, first ▸ (by decide), rfl⟩

theorem readOne_safe : CacheSafe true (holdingOne false) readOne := by
  refine ⟨fun p _ _ _ => memory_honest _ _ _, ?_, fun through => Bool.noConfusion through, Or.inl rfl⟩
  intro p _ below
  exact absurd below (Nat.not_lt_zero p)

theorem readOne_step : ∃ res,
    ccCacheReadFile true enough memoryCallbacks (fun _ => 0) (holdingOne false).file 0 (fun _ => 0) 1 0 = some res ∧
      succeeded res.1 = true := by
  have found := @repeatRead_once false (Request.start 0 1) ⟨(holdingOne false).file.cacheMap, fun _ => 0, 0⟩ 0 rfl
    (by decide)
  have search : ccpFindAndReadWrite false (Request.start 0 1) ⟨(holdingOne false).file.cacheMap, fun _ => 0, 0⟩ =
    repeatRead false (Request.start 0 1) ⟨(holdingOne false).file.cacheMap, fun _ => 0, 0⟩ := rfl
  have transfer : ccCacheReadFile true enough memoryCallbacks (fun _ => 0) (holdingOne false).file 0 (fun _ => 0) 1 0 =
      afterSearch (ccpActualRead enough memoryCallbacks (fun _ => 0) true)
        (ccpFindAndReadWrite false (Request.start 0 1) ⟨(holdingOne false).file.cacheMap, fun _ => 0, 0⟩) := rfl
  rw [transfer, search, found]
  exact ⟨_, rfl, by decide⟩

theorem written_byte_read : ∃ t res, cacheStep true (began false false) writeOne = some t ∧
    ccCacheReadFile true enough memoryCallbacks t.store t.file 0 (fun _ => 0) 1 0 = some res ∧
    res.2.buffer 0 = 1 := by
  obtain ⟨res, ends, succeeds⟩ := readOne_step
  refine ⟨holdingOne false, res, writeOne_step false, ends, ?_⟩
  have begun : ccInitializeFileCaching (fun _ => true) (opened false false) 512 =
    some (Status.success.code, opened false false) := rfl
  have run : Run (Guarded (CacheSafe true) fun t op t' => cacheStep true t op = some t') (began false false) [writeOne]
      (holdingOne false) := .next ⟨writeOne_safe, writeOne_step false⟩ (.done _)
  exact read_your_writes (by decide) begun run readOne_safe res ends succeeds 0 (by decide)

/-- Read past the cache, the byte that the cache holds is not seen. -/
theorem stale_read : ¬ ∀ t, Run (fun t (op : CacheOp (id : Buffer → Buffer) 512 4096) t' => cacheStep true t op = some t')
    (began true false) [writeOne] t → ReadsBack true t readOne := by
  intro claim
  have run := claim (holdingOne true) (.next (writeOne_step true) (.done _))
  have one_page : ¬ (Request.start 0 1).More := by decide
  have transfer : ccCacheReadFile true enough memoryCallbacks (fun _ => 0) (holdingOne true).file 0 (fun _ => 0) 1 0 =
      some (readPiece enough memoryCallbacks (fun _ => 0) false (Request.start 0 1) (fun _ => 0)
        ⟨(holdingOne true).file.cacheMap, fun _ => 0, 0⟩) := by
    show ccpActualRead enough memoryCallbacks (fun _ => 0) false (Request.start 0 1) _ = _
    rw [ccpActualRead, ccpActual_once one_page]
    rfl
  have same := run _ transfer (by decide) 0 (by decide)
  exact absurd same (by decide)

end Gr8os.Cc
