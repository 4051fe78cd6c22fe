import Gr8os.Lib.Bytes
import Gr8os.Lib.Slots
import Gr8os.Status
import Mathlib.Algebra.Group.Nat.Defs

/-! The file cache: cached pages of one file, the reads and writes that go through them, and the purge.
A result of none is a machine that no longer runs: a failed assertion or a fault. -/
namespace Gr8os.Cc

open Bytes Slots

def pageSize : Nat := 4096

def minCachedPages : Nat := 32

def maxCachedPagesLimit : Nat := 1024

def ccCacheMapRebuildFrequency : BitVec 32 := 4

structure CachedPage where
  cached : Bool := false
  modified : Bool := false
  pageNumber : Nat := 0
  buffer : Buffer := fun _ => 0

/-- A driver's routine that reads a cluster of the file into a buffer. -/
structure CacheRead (σ : Type) where
  status : Nat → BitVec 32
  bytes : σ → Nat → Buffer → Buffer

/-- A driver's routine that writes a cluster of the file from a buffer. -/
structure CacheWrite (σ : Type) where
  status : Nat → BitVec 32
  store : σ → Nat → Buffer → σ

/-- The routines of a driver, with what each of them answers during one call of the cache. -/
structure Callbacks (σ : Type) where
  actualRead : Option (CacheRead σ)
  actualWrite : Option (CacheWrite σ)

/-- What the rest of the kernel answers during one call: the page for the transfer of a page of the file,
whether there is one to keep that page in, whether the heap has room, and what an unset variable holds. -/
structure Resources where
  tempPage : Nat → Option Buffer
  cachedPage : Nat → Bool
  heap : Nat → Bool
  unset : BitVec 32

structure CacheMap where
  cachedPages : Nat
  clusterSize : Nat
  clustersPerPage : Nat
  shouldRebuild : BitVec 32
  pageCacheMap : List CachedPage

structure File where
  readThrough : Bool
  writeThrough : Bool
  cacheMap : CacheMap

def CacheMap.maxCachedPages (m : CacheMap) : Nat := m.pageCacheMap.length

def File.isCached (file : File) : Bool := !file.readThrough || !file.writeThrough

/-- A cluster size of zero is a division by zero, a full heap leaves the file without a map. -/
def ccInitializeFileCaching (heap : Nat → Bool) (file : File) (clusterSize : Nat) : Option (BitVec 32 × File) :=
  if clusterSize = 0 then none
  else if clusterSize < pageSize ∧ pageSize % clusterSize ≠ 0 then some (Status.invalidParameter.code, file)
  else
    let noncached := { file with readThrough := true, writeThrough := true }
    let clustersPerPage := if clusterSize < pageSize then pageSize / clusterSize % 256 else 0
    let cacheMap := fun pageCacheMap =>
      { cachedPages := 0, clusterSize := clusterSize, clustersPerPage := clustersPerPage, shouldRebuild := 0,
        pageCacheMap := pageCacheMap : CacheMap }
    if !heap 1 then some (Status.insufficientResources.code, noncached)
    else if file.isCached then
      if heap minCachedPages then
        some (Status.success.code, { file with cacheMap := cacheMap (List.replicate minCachedPages {}) })
      else some (Status.insufficientResources.code, noncached)
    else some (Status.success.code, { file with cacheMap := cacheMap [] })

/-- The build disables rebuilding, so that the routine returns at once. -/
def ccpRebuildCacheMap (m : CacheMap) (_forceReduceMap : Bool) : CacheMap := m

/-- One more page is counted, and a table that the count has reached is doubled. -/
def ccpGrowCacheMap (k : Resources) (m : CacheMap) : CacheMap :=
  let m := { m with cachedPages := m.cachedPages + 1 }
  if m.cachedPages = m.maxCachedPages then
    let m := if m.maxCachedPages = maxCachedPagesLimit then ccpRebuildCacheMap m true else m
    if k.heap (m.maxCachedPages * 2) then
      { m with pageCacheMap := m.pageCacheMap ++ List.replicate m.maxCachedPages {} }
    else ccpRebuildCacheMap m true
  else m

def ccpCacheFilePage (k : Resources) (m : CacheMap) (pageNumber : Nat) (pageBuffer : Buffer) :
    BitVec 32 × CacheMap :=
  let m := ccpGrowCacheMap k m
  match m.pageCacheMap.findIdx? fun page => !page.cached with
  | none => (Status.unsuccessful.code, m)
  | some i =>
    if k.cachedPage pageNumber then
      let page := { cached := true, modified := false, pageNumber := pageNumber, buffer := pageBuffer }
      (Status.success.code, { m with pageCacheMap := m.pageCacheMap.set i page })
    else
      let page := { cached := false, modified := false, pageNumber := pageNumber }
      (Status.insufficientResources.code, { m with pageCacheMap := m.pageCacheMap.set i page })

section Transfers

variable {σ : Type}

/-- The clusters of a page are read one after another, and the status is that of the last one read. -/
def readClusters (read : CacheRead σ) (m : CacheMap) (s : σ) (pageNumber : Nat) :
    List Nat → BitVec 32 → Buffer → BitVec 32 × Buffer
  | [], status, buffer => (status, buffer)
  | i :: is, _, buffer =>
    let cluster := pageNumber * m.clustersPerPage + i
    let status := read.status cluster
    let bytes := read.bytes s cluster fun j => buffer (i * m.clusterSize + j)
    let buffer := memcpy buffer (i * m.clusterSize) bytes 0 m.clusterSize
    if status = Status.endOfFile.code then (Status.success.code, buffer)
    else if status = Status.noMediaInDevice.code then (status, buffer)
    else readClusters read m s pageNumber is status buffer

def ccpActualReadPage (k : Resources) (cb : Callbacks σ) (s : σ) (m : CacheMap) (pageNumber : Nat)
    (buffer : Buffer) : BitVec 32 × Buffer :=
  match cb.actualRead with
  | none => (Status.notSupported.code, buffer)
  | some read => readClusters read m s pageNumber (List.range m.clustersPerPage) k.unset buffer

def writeClusters (write : CacheWrite σ) (m : CacheMap) (page : CachedPage) :
    List Nat → BitVec 32 → σ → BitVec 32 × σ
  | [], status, s => (status, s)
  | i :: is, _, s =>
    let cluster := page.pageNumber * m.clustersPerPage + i
    writeClusters write m page is (write.status cluster)
      (write.store s cluster fun j => page.buffer (i * m.clusterSize + j))

def ccpActualWritePage (k : Resources) (cb : Callbacks σ) (s : σ) (m : CacheMap) (page : CachedPage) :
    BitVec 32 × σ :=
  match cb.actualWrite with
  | none => (Status.notSupported.code, s)
  | some write => writeClusters write m page (List.range m.clustersPerPage) k.unset s

/-- The loop of the purge stops at the first page that could not be written. -/
def purgePages (k : Resources) (cb : Callbacks σ) (m : CacheMap) :
    List CachedPage → BitVec 32 → σ → BitVec 32 × List CachedPage × σ
  | [], status, s => (status, [], s)
  | page :: pages, status, s =>
    if page.cached && page.modified then
      let (status, s) := ccpActualWritePage k cb s m page
      if succeeded status then
        let (status, pages, s) := purgePages k cb m pages status s
        (status, { page with modified := false } :: pages, s)
      else (status, page :: pages, s)
    else
      let (status, pages, s) := purgePages k cb m pages status s
      (status, page :: pages, s)

def ccPurgeCacheFile (k : Resources) (cb : Callbacks σ) (s : σ) (file : File) : BitVec 32 × File × σ :=
  let (status, pages, s) := purgePages k cb file.cacheMap file.cacheMap.pageCacheMap Status.success.code s
  (status, { file with cacheMap := { file.cacheMap with pageCacheMap := pages } }, s)

/-- A place in the file, the place in the caller's buffer for its byte, and how much is still to do. -/
structure Request where
  pageNumber : Nat
  pageOffset : Fin 4096
  buffer : Nat
  size : Nat

def Request.readpart (r : Request) : Nat := pageSize - r.pageOffset

def Request.next (r : Request) : Request where
  pageNumber := r.pageNumber + 1
  pageOffset := 0
  buffer := r.buffer + r.readpart
  size := r.size - r.readpart

/-- What a read or a write changes: the map, the caller's buffer and the count of bytes. -/
structure Transfer where
  cacheMap : CacheMap
  buffer : Buffer
  nBytes : BitVec 32

theorem Request.readpart_pos (r : Request) : 0 < r.readpart := by
  have := r.pageOffset.isLt
  unfold readpart pageSize
  omega

theorem Request.next_size_lt {r : Request} (left : 0 < r.next.size) : r.next.size < r.size := by
  have some : 0 < r.size - r.readpart := left
  have := r.readpart_pos
  change r.size - r.readpart < r.size
  omega

/-- A piece of the request copied between the caller's buffer and a cached page. -/
def copyPiece (writeOperation : Bool) (r : Request) (i : Nat) (page : CachedPage) (n : Nat) (t : Transfer) :
    Transfer :=
  let t := { t with nBytes := t.nBytes + BitVec.ofNat 32 n }
  if writeOperation then
    let page := { page with buffer := memcpy page.buffer r.pageOffset t.buffer r.buffer n }
    { t with cacheMap := { t.cacheMap with pageCacheMap := t.cacheMap.pageCacheMap.set i page } }
  else { t with buffer := memcpy t.buffer r.buffer page.buffer r.pageOffset n }

def markModified (writeOperation : Bool) (i : Nat) (t : Transfer) : Transfer :=
  if writeOperation then
    let pages := t.cacheMap.pageCacheMap.modify i fun page => { page with modified := true }
    { t with cacheMap := { t.cacheMap with pageCacheMap := pages } }
  else t

def CachedPage.holds (pageNumber : Nat) (page : CachedPage) : Bool :=
  page.cached && page.pageNumber == pageNumber

/-- The loop of the search, which goes on with the next page as long as there is more to copy. -/
def repeatRead (writeOperation : Bool) (r : Request) (t : Transfer) : BitVec 32 × Request × Transfer :=
  match t.cacheMap.pageCacheMap.findIdx? (CachedPage.holds r.pageNumber) with
  | none => (Status.notFound.code, r, t)
  | some i =>
    let page := t.cacheMap.pageCacheMap.getD i {}
    if r.size ≤ r.readpart then
      (Status.success.code, r, markModified writeOperation i (copyPiece writeOperation r i page r.size t))
    else repeatRead writeOperation r.next (copyPiece writeOperation r i page r.readpart t)
termination_by r.size
decreasing_by
  have := r.readpart_pos
  simp only [Request.next]
  omega

def ccpFindAndReadWrite (writeOperation : Bool) (r : Request) (t : Transfer) : BitVec 32 × Request × Transfer :=
  repeatRead writeOperation r { t with nBytes := 0 }

theorem repeatRead_size_le (writeOperation : Bool) (r : Request) (t : Transfer) :
    (repeatRead writeOperation r t).2.1.size ≤ r.size := by
  fun_induction repeatRead writeOperation r t with
  | case1 => exact Nat.le_refl _
  | case2 => exact Nat.le_refl _
  | case3 r t i found page more ih => exact Nat.le_trans ih (Nat.sub_le ..)

/-- The difference of two sizes, taken as a signed number, is positive. -/
def Request.More (r : Request) : Prop := 0 < r.next.size ∧ r.next.size < 2 ^ 31

instance (r : Request) : Decidable r.More := inferInstanceAs (Decidable (_ ∧ _))

theorem find_next_lt (writeOperation : Bool) (r : Request) (t : Transfer) (more : r.More) :
    (ccpFindAndReadWrite writeOperation r.next t).2.1.size < r.size := by
  have found := repeatRead_size_le writeOperation r.next { t with nBytes := 0 }
  exact Nat.lt_of_le_of_lt found (Request.next_size_lt more.1)

/-- How much of the request lies on its first page. -/
def Request.piece (r : Request) : Nat := if r.readpart < r.size then r.readpart else r.size

/-- The page is read from the disk, its piece of the request copied out and the page put into the cache. -/
def readPiece (k : Resources) (cb : Callbacks σ) (s : σ) (cache : Bool) (r : Request) (tempPage : Buffer)
    (t : Transfer) : BitVec 32 × Transfer :=
  let (status, tempPage) := ccpActualReadPage k cb s t.cacheMap r.pageNumber tempPage
  if succeeded status then
    (status,
      { cacheMap := if cache then (ccpCacheFilePage k t.cacheMap r.pageNumber tempPage).2 else t.cacheMap
        buffer := memcpy t.buffer r.buffer tempPage r.pageOffset r.piece
        nBytes := t.nBytes + BitVec.ofNat 32 r.piece })
  else (status, t)

/-- The page is read from the disk, its piece of the request copied in and the page put into the cache. -/
def writePiece (k : Resources) (cb : Callbacks σ) (s : σ) (r : Request) (tempPage : Buffer) (t : Transfer) :
    BitVec 32 × Transfer :=
  let (status, tempPage) := ccpActualReadPage k cb s t.cacheMap r.pageNumber tempPage
  if succeeded status then
    let tempPage := memcpy tempPage r.pageOffset t.buffer r.buffer r.piece
    (status,
      { t with
        cacheMap := (ccpCacheFilePage k t.cacheMap r.pageNumber tempPage).2
        nBytes := t.nBytes + BitVec.ofNat 32 r.piece })
  else (status, t)

/-- One page is transferred, then the rest of the request from the cache until a page is not found there. -/
def ccpActual (k : Resources) (piece : Request → Buffer → Transfer → BitVec 32 × Transfer)
    (writeOperation : Bool) (r : Request) (t : Transfer) : Option (BitVec 32 × Transfer) :=
  match k.tempPage r.pageNumber with
  | none => none
  | some tempPage =>
    let (status, t) := piece r tempPage t
    if _ : r.More then
      let found := ccpFindAndReadWrite writeOperation r.next t
      if found.1 = Status.notFound.code then ccpActual k piece writeOperation found.2.1 found.2.2
      else some (found.1, found.2.2)
    else some (status, t)
termination_by r.size
decreasing_by exact find_next_lt _ _ _ ‹_›

def ccpActualRead (k : Resources) (cb : Callbacks σ) (s : σ) (cache : Bool) :
    Request → Transfer → Option (BitVec 32 × Transfer) :=
  ccpActual k (readPiece k cb s cache) false

def ccpActualWrite (k : Resources) (cb : Callbacks σ) (s : σ) :
    Request → Transfer → Option (BitVec 32 × Transfer) :=
  ccpActual k (writePiece k cb s) true

def Request.start (offset size : BitVec 32) : Request where
  pageNumber := offset.toNat / 4096
  pageOffset := ⟨offset.toNat % 4096, Nat.mod_lt _ (by decide)⟩
  buffer := 0
  size := size.toNat

def countRebuild (m : CacheMap) : CacheMap :=
  let m := { m with shouldRebuild := m.shouldRebuild + 1 }
  if m.shouldRebuild % ccCacheMapRebuildFrequency = 0 then ccpRebuildCacheMap m false else m

/-- What the search did not find is transferred, and every so many requests the map is rebuilt. -/
def afterSearch (transfer : Request → Transfer → Option (BitVec 32 × Transfer))
    (found : BitVec 32 × Request × Transfer) : Option (BitVec 32 × Transfer) := do
  let (status, t) ← if found.1 = Status.notFound.code then
      (transfer found.2.1 found.2.2).map fun (status, t) =>
        (if succeeded status then Status.cached.code else status, t)
    else some (found.1, found.2.2)
  some (status, { t with cacheMap := countRebuild t.cacheMap })

def ccCacheReadFile (checked : Bool) (k : Resources) (cb : Callbacks σ) (s : σ) (file : File)
    (offset : BitVec 32) (buffer : Buffer) (size nBytesRead : BitVec 32) : Option (BitVec 32 × Transfer) :=
  let r := Request.start offset size
  let t : Transfer := { cacheMap := file.cacheMap, buffer := buffer, nBytes := nBytesRead }
  if checked && pageSize * 20 ≤ r.size then none
  else if file.readThrough then ccpActualRead k cb s false r t
  else
    afterSearch (ccpActualRead k cb s true) (ccpFindAndReadWrite false r t)

def ccCacheWriteFile (checked : Bool) (k : Resources) (cb : Callbacks σ) (s : σ) (file : File)
    (offset : BitVec 32) (buffer : Buffer) (size nBytesWritten : BitVec 32) : Option (BitVec 32 × Transfer) :=
  let r := Request.start offset size
  let t : Transfer := { cacheMap := file.cacheMap, buffer := buffer, nBytes := nBytesWritten }
  if checked && pageSize * 20 ≤ r.size then none
  else if file.writeThrough then ccpActualWrite k cb s r t
  else
    afterSearch (ccpActualWrite k cb s) (ccpFindAndReadWrite true r t)

end Transfers

end Gr8os.Cc
