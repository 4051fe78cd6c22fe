import Gr8os.Cc.MapRuns

/-! What a call of the cache does besides its map, in order: the bytes of the caller's buffer that it touches, the
clusters that it asks the driver for, and the memory that it gives back. -/
namespace Gr8os.Cc

open Bytes Slots

inductive CacheEvent
  /-- So many bytes of the caller's buffer from a place on, copied in or out. -/
  | access (place n : Nat)
  | readCluster (cluster : Nat) (status : BitVec 32)
  | writeCluster (slot cluster : Nat) (status : BitVec 32)
  /-- MmFreePage with the buffer of a slot. -/
  | freePage (slot : Nat)
  | freePageCacheMap
  | freeCacheMap
deriving DecidableEq

/-- The clusters are read until the file ends or the medium is gone. -/
def clusterReads (status : Nat → BitVec 32) (first : Nat) : List Nat → List CacheEvent
  | [] => []
  | i :: is =>
    .readCluster (first + i) (status (first + i)) ::
      if status (first + i) = Status.endOfFile.code ∨ status (first + i) = Status.noMediaInDevice.code then []
      else clusterReads status first is

section Transfers

variable {σ : Type}

def pageReadEvents (cb : Callbacks σ) (clustersPerPage pageNumber : Nat) : List CacheEvent :=
  match cb.actualRead with
  | none => []
  | some read => clusterReads read.status (pageNumber * clustersPerPage) (List.range clustersPerPage)

/-- What repeatRead does. -/
def repeatReadEvents (writeOperation : Bool) (r : Request) (t : Transfer) : List CacheEvent :=
  match t.cacheMap.pageCacheMap.findIdx? (CachedPage.holds r.pageNumber) with
  | none => []
  | some i =>
    let page := t.cacheMap.pageCacheMap.getD i {}
    if r.size ≤ r.readpart then [.access r.buffer r.size]
    else
      .access r.buffer r.readpart ::
        repeatReadEvents writeOperation r.next (copyPiece writeOperation r i page r.readpart t)
termination_by r.size
decreasing_by
  have := r.readpart_pos
  simp only [Request.next]
  omega

def findEvents (writeOperation : Bool) (r : Request) (t : Transfer) : List CacheEvent :=
  repeatReadEvents writeOperation r { t with nBytes := 0 }

/-- What readPiece and writePiece do. -/
def pieceEvents (k : Resources) (cb : Callbacks σ) (r : Request) (t : Transfer) : List CacheEvent :=
  pageReadEvents cb t.cacheMap.clustersPerPage r.pageNumber ++
    if pageReads k cb t.cacheMap r.pageNumber = true then [.access r.buffer r.piece] else []

/-- What ccpActual does. -/
def ccpActualEvents (k : Resources) (cb : Callbacks σ) (piece : Request → Buffer → Transfer → BitVec 32 × Transfer)
    (writeOperation : Bool) (r : Request) (t : Transfer) : List CacheEvent :=
  match k.tempPage r.pageNumber with
  | none => []
  | some tempPage =>
    let t' := (piece r tempPage t).2
    pieceEvents k cb r t ++
      if _ : r.More then
        let found := ccpFindAndReadWrite writeOperation r.next t'
        findEvents writeOperation r.next t' ++
          if found.1 = Status.notFound.code then ccpActualEvents k cb piece writeOperation found.2.1 found.2.2 else []
      else []
termination_by r.size
decreasing_by exact find_next_lt _ _ _ ‹_›

/-- What a search and the transfer of what it did not find do. -/
def afterSearchEvents (k : Resources) (cb : Callbacks σ) (piece : Request → Buffer → Transfer → BitVec 32 × Transfer)
    (writeOperation : Bool) (r : Request) (t : Transfer) : List CacheEvent :=
  let found := ccpFindAndReadWrite writeOperation r t
  findEvents writeOperation r t ++
    if found.1 = Status.notFound.code then ccpActualEvents k cb piece writeOperation found.2.1 found.2.2 else []

def ccCacheReadFileEvents (checked : Bool) (k : Resources) (cb : Callbacks σ) (s : σ) (file : File)
    (offset : BitVec 32) (buffer : Buffer) (size nBytesRead : BitVec 32) : List CacheEvent :=
  let r := Request.start offset size
  let t : Transfer := { cacheMap := file.cacheMap, buffer := buffer, nBytes := nBytesRead }
  if checked && pageSize * 20 ≤ r.size then []
  else if file.readThrough then ccpActualEvents k cb (readPiece k cb s false) false r t
  else afterSearchEvents k cb (readPiece k cb s true) false r t

def ccCacheWriteFileEvents (checked : Bool) (k : Resources) (cb : Callbacks σ) (s : σ) (file : File)
    (offset : BitVec 32) (buffer : Buffer) (size nBytesWritten : BitVec 32) : List CacheEvent :=
  let r := Request.start offset size
  let t : Transfer := { cacheMap := file.cacheMap, buffer := buffer, nBytes := nBytesWritten }
  if checked && pageSize * 20 ≤ r.size then []
  else if file.writeThrough then ccpActualEvents k cb (writePiece k cb s) true r t
  else afterSearchEvents k cb (writePiece k cb s) true r t

/-- The page whose reading ends a request, if it does not end with a copy. -/
def endsAt (m : CacheMap) (fetch : Bool) (r : Request) : Option Nat :=
  if fetch = true ∨ m.copyOf r.pageNumber = none then
    if _ : r.More then endsAt m false r.next else some r.pageNumber
  else if r.size ≤ r.readpart then none else endsAt m false r.next
termination_by r.size
decreasing_by
  · rename_i more
    exact Request.next_size_lt more.1
  · have := r.readpart_pos
    simp only [Request.next]
    omega

theorem endsAt_fetch (m : CacheMap) (r : Request) :
    endsAt m true r = if r.More then endsAt m false r.next else some r.pageNumber := by
  rw [endsAt, if_pos (Or.inl rfl)]
  rfl

theorem endsAt_missing {m : CacheMap} {r : Request} (missing : m.copyOf r.pageNumber = none) :
    endsAt m false r = endsAt m true r := by
  rw [endsAt_fetch, endsAt, if_pos (Or.inr missing)]
  rfl

theorem endsAt_copied {m : CacheMap} {r : Request} (copied : m.copyOf r.pageNumber ≠ none) :
    endsAt m false r = if r.size ≤ r.readpart then none else endsAt m false r.next := by
  rw [endsAt, if_neg]
  simp [copied]

theorem endsAt_congr {m m' : CacheMap} {fetch : Bool} {r : Request}
    (same : ∀ p, r.pageNumber ≤ p → (m'.copyOf p = none ↔ m.copyOf p = none)) : endsAt m' fetch r = endsAt m fetch r := by
  fun_induction endsAt m fetch r with
  | case1 fetch r missing more ih =>
    rw [endsAt, if_pos (missing.imp_right (same _ (Nat.le_refl _)).mpr), dif_pos more]
    exact ih fun p above => same p (Nat.le_of_succ_le above)
  | case2 fetch r missing once =>
    rw [endsAt, if_pos (missing.imp_right (same _ (Nat.le_refl _)).mpr), dif_neg once]
  | case3 fetch r copied short =>
    have still : ¬(fetch = true ∨ m'.copyOf r.pageNumber = none) :=
      fun missing => copied (missing.imp_right (same _ (Nat.le_refl _)).mp)
    rw [endsAt, if_neg still, if_pos short]
  | case4 fetch r copied long ih =>
    have still : ¬(fetch = true ∨ m'.copyOf r.pageNumber = none) :=
      fun missing => copied (missing.imp_right (same _ (Nat.le_refl _)).mp)
    rw [endsAt, if_neg still, if_neg long]
    exact ih fun p above => same p (Nat.le_of_succ_le above)

/-- A search ends the request with a copy, or stops at a page to read. -/
theorem repeatRead_endsAt (writeOperation : Bool) (r : Request) (t : Transfer) :
    ((repeatRead writeOperation r t).1 = Status.success.code ∧ endsAt t.cacheMap false r = none) ∨
      ((repeatRead writeOperation r t).1 = Status.notFound.code ∧
        endsAt t.cacheMap false r = endsAt t.cacheMap true (repeatRead writeOperation r t).2.1) := by
  fun_induction repeatRead writeOperation r t with
  | case1 r t missing => exact .inr ⟨rfl, endsAt_missing (find?_none_of_findIdx? missing)⟩
  | case2 r t i found page short =>
    have copied : t.cacheMap.copyOf r.pageNumber = some page := getD_of_findIdx? found
    refine .inl ⟨rfl, ?_⟩
    rw [endsAt_copied (by simp [copied]), if_pos short]
  | case3 r t i found page long ih =>
    have copied : t.cacheMap.copyOf r.pageNumber = some page := getD_of_findIdx? found
    have here : t.cacheMap.pageCacheMap[i]? = some page := (find?_of_findIdx? found).symm.trans copied
    have alike : Alike t.cacheMap (copyPiece writeOperation r i page r.readpart t).cacheMap := copyPiece_alike here
    have same : ∀ fetch r', endsAt (copyPiece writeOperation r i page r.readpart t).cacheMap fetch r' =
        endsAt t.cacheMap fetch r' := fun fetch r' => endsAt_congr fun p _ => alike.copyOf p
    rw [endsAt_copied (by simp [copied]), if_neg long]
    simpa only [same] using ih

/-- Where a page for the transfer is never missing, a transfer ends. -/
theorem ccpActual_ends {k : Resources} (allocated : ∀ p, k.tempPage p ≠ none)
    (piece : Request → Buffer → Transfer → BitVec 32 × Transfer) (writeOperation : Bool) (r : Request) (t : Transfer) :
    ∃ res, ccpActual k piece writeOperation r t = some res := by
  fun_induction ccpActual k piece writeOperation r t with
  | case1 r t missing => exact absurd missing (allocated _)
  | case2 r t tempPage found_page status t₁ first more found missing ih => exact ih
  | case3 => exact ⟨_, rfl⟩
  | case4 => exact ⟨_, rfl⟩

theorem afterSearch_ends {k : Resources} (allocated : ∀ p, k.tempPage p ≠ none)
    (piece : Request → Buffer → Transfer → BitVec 32 × Transfer) (writeOperation : Bool)
    (found : BitVec 32 × Request × Transfer) : ∃ res, afterSearch (ccpActual k piece writeOperation) found = some res := by
  unfold afterSearch
  split
  · obtain ⟨res, ends⟩ := ccpActual_ends allocated piece writeOperation found.2.1 found.2.2
    rw [ends]
    exact ⟨_, rfl⟩
  · exact ⟨_, rfl⟩

theorem ccCacheReadFile_ends {k : Resources} (allocated : ∀ p, k.tempPage p ≠ none) (checked : Bool)
    (cb : Callbacks σ) (s : σ) (file : File) (offset : BitVec 32) (buffer : Buffer) (size nBytesRead : BitVec 32)
    (small : size.toNat < pageSize * 20) :
    ∃ res, ccCacheReadFile checked k cb s file offset buffer size nBytesRead = some res := by
  have below : ¬pageSize * 20 ≤ (Request.start offset size).size := Nat.not_le.mpr small
  unfold ccCacheReadFile
  dsimp only
  rw [if_neg (by simp [below])]
  split
  · exact ccpActual_ends allocated _ _ _ _
  · exact afterSearch_ends allocated _ _ _

/-- All clusters of a page are written, whatever the driver answers. -/
def pageWriteEvents (cb : Callbacks σ) (m : CacheMap) (slot : Nat) (page : CachedPage) : List CacheEvent :=
  match cb.actualWrite with
  | none => []
  | some write => (List.range m.clustersPerPage).map fun i =>
      .writeCluster slot (page.pageNumber * m.clustersPerPage + i) (write.status (page.pageNumber * m.clustersPerPage + i))

/-- The status of a write of the page, which is that of its last cluster. -/
def pageWriteStatus (k : Resources) (cb : Callbacks σ) (m : CacheMap) (page : CachedPage) : BitVec 32 :=
  match cb.actualWrite with
  | none => Status.notSupported.code
  | some write =>
    if m.clustersPerPage = 0 then k.unset
    else write.status (page.pageNumber * m.clustersPerPage + (m.clustersPerPage - 1))

theorem ccpActualWritePage_status (k : Resources) (cb : Callbacks σ) (s : σ) (m : CacheMap) (page : CachedPage) :
    (ccpActualWritePage k cb s m page).1 = pageWriteStatus k cb m page := by
  unfold ccpActualWritePage pageWriteStatus
  cases cb.actualWrite with
  | none => rfl
  | some write =>
    dsimp only
    cases count : m.clustersPerPage with
    | zero => rfl
    | succ n =>
      rw [if_neg (Nat.succ_ne_zero n), List.range_eq_range', writeClusters_status, count, Nat.zero_add, Nat.add_sub_cancel]

/-- What purgePages does, from a slot on. -/
def purgeEvents (k : Resources) (cb : Callbacks σ) (m : CacheMap) : Nat → List CachedPage → List CacheEvent
  | _, [] => []
  | slot, page :: pages =>
    if page.cached && page.modified then
      pageWriteEvents cb m slot page ++
        if succeeded (pageWriteStatus k cb m page) then purgeEvents k cb m (slot + 1) pages else []
    else purgeEvents k cb m (slot + 1) pages

end Transfers

end Gr8os.Cc
