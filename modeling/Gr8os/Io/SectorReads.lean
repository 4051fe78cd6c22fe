import Gr8os.Io.FileTransfers

/-! Devices of sectors: a handler that hands its reads to the cache, over a routine that reads the sectors one by one. -/
namespace Gr8os.Io

open Bytes Cc

/-- The routines without the one that writes, as a read of the cache calls them. -/
def readOnly {σ : Type} (cb : Callbacks σ) : Callbacks σ := { cb with actualWrite := none }

/-- A routine that reads sectors: what it reads with success are the bytes of the device, it never tells of an end, and it
succeeds where the device gives the sector. -/
structure ReadsSectors {σ : Type} (cb : Callbacks σ) (byte : σ → Nat → BitVec 8) (sectors : Nat) (gives : Nat → Prop) :
    Prop where
  serves : Serves (readOnly cb) byte 512 (sectors * 512)
  given : ∃ read, cb.actualRead = some read ∧ ∀ c, gives c → read.status c = Status.success.code

section files

variable {τ : Type}

/-- A file of so many sectors that is open for reads through the cache, as its driver opens it, and that nothing was written
to. -/
structure SectorFile (Kind : τ → Prop) (cache : τ → Cc.File) (bytes : Nat → BitVec 8) (sectors : Nat) (f : OpenFile τ) :
    Prop where
  kind : Kind f.device
  access : f.object.readAccess = true
  cached : (cache f.device).readThrough = false
  clusterSize : (cache f.device).cacheMap.clusterSize = 512
  clustersPerPage : (cache f.device).cacheMap.clustersPerPage = 8
  clean : Clean bytes (sectors * 512) (cache f.device).cacheMap

/-- A call that gets its memory and reads sectors of the file. At most the last page of the range comes from the device, and
the device gives all its sectors. -/
structure SectorsServed (gives : Nat → Prop) (cache : τ → Cc.File) (sectors : Nat) (f : OpenFile τ) (c : ReadCall) :
    Prop where
  irpAllocated : c.request.irpAllocated = true
  bufferAllocated : c.request.bufferAllocated = true
  place : (c.place f).toNat % 512 = 0
  length : c.request.length.toNat % 512 = 0
  inside : (c.place f).toNat + c.request.length.toNat ≤ sectors * 512
  fits : (c.place f).toNat + c.request.length.toNat < 4294967296
  short : c.request.length.toNat < 20 * Cc.pageSize
  copied : ∀ p, (c.range f).pageNumber ≤ p → p < (c.range f).last → ¬FromStore (cache f.device) (c.range f) p
  tempPage : FromStore (cache f.device) (c.range f) (c.range f).last → (c.k.tempPage (c.range f).last).isSome = true
  given : FromStore (cache f.device) (c.range f) (c.range f).last → ∀ i < 8, gives ((c.range f).last * 8 + i)

/-- A driver that answers a read of whole sectors with what the cache returns, and keeps the map that the cache leaves. -/
structure ReadsThrough {σ : Type} (checked : Bool) (driver : Resources → FileDriver τ) (cb : Callbacks σ) (s : σ)
    (Kind : τ → Prop) (cache : τ → Cc.File) (withMap : τ → CacheMap → τ) : Prop where
  answers : ∀ {f : OpenFile τ} {c : ReadCall} {input : Buffer}, Kind f.device → (c.place f).toNat % 512 = 0 →
    c.request.length.toNat % 512 = 0 →
    driver c.k f.device f.object (c.packet f) input =
      (ccCacheReadFile checked c.k cb s (cache f.device) (c.place f) input c.request.length c.request.length).map
        fun (status, t) => (⟨t.buffer, ⟨status, t.nBytes⟩, status⟩, withMap f.device t.cacheMap)
  map : ∀ d m, cache (withMap d m) = { cache d with cacheMap := m }
  kind : ∀ {d}, Kind d → ∀ m, Kind (withMap d m)

end files

section sectors

variable {σ τ : Type} {checked : Bool} {cb : Callbacks σ} {byte : σ → Nat → BitVec 8} {s : σ} {gives : Nat → Prop}
  {sectors : Nat} {Kind : τ → Prop} {cache : τ → Cc.File} {withMap : τ → CacheMap → τ} {f : OpenFile τ} {c : ReadCall}

theorem ccCacheReadFile_readOnly (checked : Bool) (k : Resources) (cb : Callbacks σ) (s : σ) (file : Cc.File)
    (offset : BitVec 32) (b : Buffer) (length nBytes : BitVec 32) :
    ccCacheReadFile checked k cb s file offset b length nBytes =
      ccCacheReadFile checked k (readOnly cb) s file offset b length nBytes := rfl

/-- A read through the cache begins to count anew. -/
theorem ccCacheReadFile_anew {k : Resources} {file : Cc.File} (cached : file.readThrough = false) (offset : BitVec 32)
    (b : Buffer) (length nBytes : BitVec 32) :
    ccCacheReadFile checked k cb s file offset b length nBytes =
      ccCacheReadFile checked k cb s file offset b length 0 := by
  unfold ccCacheReadFile
  rw [cached]
  rfl

theorem SectorFile.onePage (reads : ReadsSectors cb byte sectors gives)
    (ready : SectorFile Kind cache (byte s) sectors f) (served : SectorsServed gives cache sectors f c) :
    OnePage c.k (readOnly cb) (cache f.device) (sectors * 512) (c.range f) := by
  obtain ⟨read, routine, given⟩ := reads.given
  have routine : (readOnly cb).actualRead = some read := routine
  refine ⟨?_, served.short, served.copied, served.tempPage, ?_, ?_⟩
  · rw [ReadCall.range, Cc.Request.start_position]
    exact served.inside
  · intro taken
    refine pageStatus_success routine ?_ fun i below => .inl ?_
    · rw [ready.clustersPerPage]
      decide
    · rw [ready.clustersPerPage] at below ⊢
      exact given _ (served.given taken i below)
  · intro taken _ read' routine' i below _
    cases routine.symm.trans routine'
    rw [ready.clustersPerPage] at below ⊢
    rw [given _ (served.given taken i below)]
    decide

/-- The cache returns the whole of a range that is served. -/
theorem SectorFile.whole (reads : ReadsSectors cb byte sectors gives)
    (ready : SectorFile Kind cache (byte s) sectors f) (served : SectorsServed gives cache sectors f c) (input : Buffer) :
    ∃ res, ccCacheReadFile checked c.k cb s (cache f.device) (c.place f) input c.request.length c.request.length =
        some res ∧
      ReadWhole (cache f.device) (byte s) (sectors * 512) (c.range f) input res := by
  have divided : (cache f.device).cacheMap.Divided := by
    unfold CacheMap.Divided
    rw [ready.clusterSize, ready.clustersPerPage]
  have serves : Serves (readOnly cb) byte (cache f.device).cacheMap.clusterSize (sectors * 512) :=
    ready.clusterSize ▸ reads.serves
  obtain ⟨res, runs, whole⟩ := @ccCacheReadFile_whole σ c.k (readOnly cb) byte s (sectors * 512) (cache f.device) checked
    (c.place f) c.request.length input serves divided ready.clean (ready.onePage reads served)
  refine ⟨res, ?_, whole⟩
  rw [ccCacheReadFile_anew ready.cached, ccCacheReadFile_readOnly, runs]

/-- Such a driver over such a routine delivers the bytes of the device. -/
theorem ReadsThrough.plain {driver : Resources → FileDriver τ}
    (through : ReadsThrough checked driver cb s Kind cache withMap) (reads : ReadsSectors cb byte sectors gives) :
    PlainReads driver (byte s) (SectorFile Kind cache (byte s) sectors) (SectorsServed gives cache sectors) where
  call := by
    intro f c ready served
    obtain ⟨res, runs, whole⟩ := @SectorFile.whole σ τ checked cb byte s gives sectors Kind cache f c reads ready served
      c.request.systemMemory
    have answered := @ReadsThrough.answers τ σ checked driver cb s Kind cache withMap through f c c.request.systemMemory
      ready.kind served.place served.length
    rw [runs, Option.map_some] at answered
    obtain ⟨t, ends, delivered, device⟩ := readFile_whole ready.access served.irpAllocated served.bufferAllocated
      answered whole served.inside served.fits fun _ _ => rfl
    refine ⟨t, ends, delivered, ?_⟩
    have kept : cache t.device = { cache f.device with cacheMap := res.2.cacheMap } := by rw [device, through.map]
    refine ⟨?_, ?_, ?_, ?_, ?_, ?_⟩
    · show Kind t.device
      rw [device]
      exact through.kind ready.kind _
    · show t.file.readAccess = true
      rw [delivered.object]
      exact ready.access
    · show (cache t.device).readThrough = false
      rw [kept]
      exact ready.cached
    · show (cache t.device).cacheMap.clusterSize = 512
      rw [kept]
      exact whole.clusters.clusterSize.trans ready.clusterSize
    · show (cache t.device).cacheMap.clustersPerPage = 8
      rw [kept]
      exact whole.clusters.clustersPerPage.trans ready.clustersPerPage
    · show Clean (byte s) (sectors * 512) (cache t.device).cacheMap
      rw [kept]
      exact whole.clean

end sectors

end Gr8os.Io
