import Gr8os.Cc.FreeCacheMap

/-! Which clusters the calls for a cached file ask the driver for. -/
namespace Gr8os.Cc

open Bytes Slots

def CacheEvent.cluster : CacheEvent → Option Nat
  | .readCluster c _ => some c
  | .writeCluster _ c _ => some c
  | _ => none

def clustersOf (events : List CacheEvent) : List Nat := events.filterMap CacheEvent.cluster

/-- The clusters that are asked for are those of the pages in order, and all of them where a page for the transfer is
never missing. -/
structure Asks (k : Resources) (asked : Nat → List Nat) (pages : List Nat) (events : List CacheEvent) : Prop where
  first : clustersOf events <+: pages.flatMap asked
  all : (∀ p, k.tempPage p ≠ none) → clustersOf events = pages.flatMap asked

theorem Puts.clustersPerPage {k : Resources} {m m' : CacheMap} {ps : List Nat} (puts : Puts k m ps m') :
    m'.clustersPerPage = m.clustersPerPage := by
  induction puts with
  | done alike => exact alike.clustersPerPage
  | put alike put _ ih => exact ih.trans (put.clustersPerPage.trans alike.clustersPerPage)

section asking

variable {σ : Type} {k : Resources} {cb : Callbacks σ} {asked : Nat → List Nat} {pages : List Nat}
  {events : List CacheEvent} {writeOperation : Bool} {r : Request} {t : Transfer}

theorem clustersOf_append (events events' : List CacheEvent) :
    clustersOf (events ++ events') = clustersOf events ++ clustersOf events' :=
  List.filterMap_append ..

theorem clustersOf_read (c : Nat) (status : BitVec 32) (events : List CacheEvent) :
    clustersOf (.readCluster c status :: events) = c :: clustersOf events := rfl

theorem Asks.nil (k : Resources) (asked : Nat → List Nat) : Asks k asked [] [] where
  first := List.nil_prefix
  all := fun _ => rfl

theorem Asks.after {silent : List CacheEvent} (asks : Asks k asked pages events) (quiet : clustersOf silent = []) :
    Asks k asked pages (silent ++ events) where
  first := by
    rw [clustersOf_append, quiet]
    exact asks.first
  all := by
    intro allocated
    rw [clustersOf_append, quiet]
    exact asks.all allocated

theorem Asks.cons {p : Nat} {here : List CacheEvent} (asks : Asks k asked pages events)
    (page : clustersOf here = asked p) : Asks k asked (p :: pages) (here ++ events) where
  first := by
    rw [clustersOf_append, page, List.flatMap_cons]
    exact (List.prefix_append_right_inj _).mpr asks.first
  all := by
    intro allocated
    rw [clustersOf_append, page, List.flatMap_cons, asks.all allocated]

/-- The clusters of a page, as far as they are read. -/
def pageClusters (cb : Callbacks σ) (clustersPerPage p : Nat) : List Nat :=
  clustersOf (pageReadEvents cb clustersPerPage p)

theorem mem_clusterReads {status : Nat → BitVec 32} {first c : Nat} {is : List Nat}
    (member : c ∈ clustersOf (clusterReads status first is)) : ∃ i ∈ is, c = first + i := by
  induction is with
  | nil => exact absurd member List.not_mem_nil
  | cons i is ih =>
    rw [clusterReads, clustersOf_read] at member
    rcases List.mem_cons.mp member with rfl | later
    · exact ⟨i, List.mem_cons_self, rfl⟩
    · split at later
      · exact absurd later List.not_mem_nil
      · obtain ⟨j, listed, same⟩ := ih later
        exact ⟨j, List.mem_cons_of_mem _ listed, same⟩

/-- Where no cluster ends the reading, each of them is read. -/
theorem clusterReads_all {status : Nat → BitVec 32} (first : Nat)
    (goes_on : ∀ c, status c ≠ Status.endOfFile.code ∧ status c ≠ Status.noMediaInDevice.code) {i : Nat} {is : List Nat}
    (listed : i ∈ is) : first + i ∈ clustersOf (clusterReads status first is) := by
  induction is with
  | nil => exact absurd listed List.not_mem_nil
  | cons j is ih =>
    rw [clusterReads, if_neg (not_or.mpr (goes_on _)), clustersOf_read]
    rcases List.mem_cons.mp listed with rfl | later
    · exact List.mem_cons_self
    · exact List.mem_cons_of_mem _ (ih later)

theorem mem_pageClusters {clustersPerPage p c : Nat} (member : c ∈ pageClusters cb clustersPerPage p) :
    ∃ i < clustersPerPage, c = p * clustersPerPage + i := by
  unfold pageClusters pageReadEvents at member
  cases reads : cb.actualRead with
  | none => simp [reads, clustersOf] at member
  | some read =>
    rw [reads] at member
    obtain ⟨i, below, same⟩ := mem_clusterReads member
    exact ⟨i, List.mem_range.mp below, same⟩

theorem pageClusters_all {clustersPerPage p i : Nat} {read : CacheRead σ} (reads : cb.actualRead = some read)
    (goes_on : ∀ c, read.status c ≠ Status.endOfFile.code ∧ read.status c ≠ Status.noMediaInDevice.code)
    (below : i < clustersPerPage) : p * clustersPerPage + i ∈ pageClusters cb clustersPerPage p := by
  unfold pageClusters pageReadEvents
  rw [reads]
  exact clusterReads_all _ goes_on (List.mem_range.mpr below)

theorem clustersOf_pieceEvents (k : Resources) (cb : Callbacks σ) (r : Request) (t : Transfer) :
    clustersOf (pieceEvents k cb r t) = pageClusters cb t.cacheMap.clustersPerPage r.pageNumber := by
  unfold pieceEvents
  rw [clustersOf_append]
  split
  · exact List.append_nil _
  · exact List.append_nil _

theorem clustersOf_repeatReadEvents (writeOperation : Bool) (r : Request) (t : Transfer) :
    clustersOf (repeatReadEvents writeOperation r t) = [] := by
  fun_induction repeatReadEvents writeOperation r t with
  | case1 => rfl
  | case2 => rfl
  | case3 r t i found page long ih => exact ih

/-- A search asks for nothing, and what follows it begins at the first page without a copy. -/
theorem Asks.search {rest : List CacheEvent}
    (asks : Asks k asked (visits (ccpFindAndReadWrite writeOperation r t).2.2.cacheMap true
      (ccpFindAndReadWrite writeOperation r t).2.1) rest) :
    Asks k asked (visits t.cacheMap false r) (findEvents writeOperation r t ++
      if (ccpFindAndReadWrite writeOperation r t).1 = Status.notFound.code then rest else []) := by
  have stopped : Stopped t.cacheMap r (ccpFindAndReadWrite writeOperation r t) :=
    repeatRead_stopped writeOperation r { t with nBytes := 0 }
  apply Asks.after _ (clustersOf_repeatReadEvents _ _ _)
  by_cases missing : (ccpFindAndReadWrite writeOperation r t).1 = Status.notFound.code
  · rw [if_pos missing, stopped.missing missing, ← visits_congr fun p _ => stopped.alike.copyOf p]
    exact asks
  · rw [if_neg missing, stopped.found missing]
    exact .nil k asked

/-- A transfer asks for the clusters of the pages that it visits. -/
theorem ccpActualEvents_asks {f : Nat → Bool} {piece : Request → Buffer → Transfer → BitVec 32 × Transfer}
    {clustersPerPage : Nat} (caches : PieceCaches k f clustersPerPage piece)
    (clusters : t.cacheMap.clustersPerPage = clustersPerPage) :
    Asks k (pageClusters cb clustersPerPage) (visits t.cacheMap true r)
      (ccpActualEvents k cb piece writeOperation r t) := by
  fun_induction ccpActualEvents k cb piece writeOperation r t with
  | case1 r t missing =>
    exact { first := List.nil_prefix, all := fun allocated => absurd missing (allocated _) }
  | case2 r t tempPage allocated t' ih =>
    have kept : t'.cacheMap.clustersPerPage = clustersPerPage := caches.clusters clusters
    have next : visits t'.cacheMap false r.next = visits t.cacheMap false r.next := caches.visits_next clusters
    have stopped : Stopped t'.cacheMap r.next (ccpFindAndReadWrite writeOperation r.next t') :=
      repeatRead_stopped writeOperation r.next { t' with nBytes := 0 }
    have page := clustersOf_pieceEvents k cb r t
    rw [clusters] at page
    rw [visits_fetch]
    apply Asks.cons _ page
    by_cases more : r.More
    · rw [dif_pos more, if_pos more, ← next]
      exact .search (ih more (stopped.alike.clustersPerPage.trans kept))
    · rw [dif_neg more, if_neg more]
      exact .nil k _

/-- A read of the file asks for the clusters of the pages that it visits. -/
theorem ccCacheReadFileEvents_asks {checked : Bool} {s : σ} {file : File} {offset size nBytesRead : BitVec 32}
    {buffer : Buffer} (fits : ¬(checked && decide (pageSize * 20 ≤ (Request.start offset size).size)) = true) :
    Asks k (pageClusters cb file.cacheMap.clustersPerPage)
      (visits file.cacheMap file.readThrough (Request.start offset size))
      (ccCacheReadFileEvents checked k cb s file offset buffer size nBytesRead) := by
  unfold ccCacheReadFileEvents
  dsimp only
  rw [if_neg fits]
  cases through : file.readThrough with
  | true =>
    rw [if_pos rfl]
    exact ccpActualEvents_asks (t := ⟨file.cacheMap, buffer, nBytesRead⟩)
      (readPiece_through k cb s file.cacheMap) rfl
  | false =>
    have stopped : Stopped file.cacheMap (Request.start offset size)
        (ccpFindAndReadWrite false (Request.start offset size) ⟨file.cacheMap, buffer, nBytesRead⟩) :=
      repeatRead_stopped false (Request.start offset size) { cacheMap := file.cacheMap, buffer := buffer, nBytes := 0 }
    rw [if_neg Bool.false_ne_true]
    unfold afterSearchEvents
    exact .search (t := ⟨file.cacheMap, buffer, nBytesRead⟩)
      (ccpActualEvents_asks (readPiece_caches k cb s file.cacheMap) stopped.alike.clustersPerPage)

/-- Each cluster that a read asks for is one of a page that it visits. -/
theorem ccCacheReadFileEvents_page {checked : Bool} {s : σ} {file : File} {offset size nBytesRead : BitVec 32}
    {buffer : Buffer} {c : Nat}
    (member : c ∈ clustersOf (ccCacheReadFileEvents checked k cb s file offset buffer size nBytesRead)) :
    ∃ p ∈ visits file.cacheMap file.readThrough (Request.start offset size),
      ∃ i < file.cacheMap.clustersPerPage, c = p * file.cacheMap.clustersPerPage + i := by
  by_cases stops : (checked && decide (pageSize * 20 ≤ (Request.start offset size).size)) = true
  · have nothing : ccCacheReadFileEvents checked k cb s file offset buffer size nBytesRead = [] := if_pos stops
    rw [nothing] at member
    exact absurd member List.not_mem_nil
  · obtain ⟨p, visited, here⟩ := List.mem_flatMap.mp ((ccCacheReadFileEvents_asks stops).first.subset member)
    exact ⟨p, visited, mem_pageClusters here⟩

end asking

section purging

variable {σ : Type} {k : Resources} {cb : Callbacks σ} {m : CacheMap} {pages : List CachedPage}

/-- What a purge writes are the dirty pages. -/
theorem mem_purgeEvents {e : CacheEvent} {n : Nat} (member : e ∈ purgeEvents k cb m n pages) :
    ∃ slot, ∃ page ∈ pages, page.dirty = true ∧ e ∈ pageWriteEvents cb m slot page := by
  induction pages generalizing n with
  | nil => exact absurd member List.not_mem_nil
  | cons page pages ih =>
    have later : ∀ {n}, e ∈ purgeEvents k cb m n pages →
        ∃ slot, ∃ q ∈ page :: pages, q.dirty = true ∧ e ∈ pageWriteEvents cb m slot q := by
      intro n rest
      obtain ⟨slot, q, listed, dirty, here⟩ := ih rest
      exact ⟨slot, q, List.mem_cons_of_mem _ listed, dirty, here⟩
    rw [purgeEvents] at member
    split at member
    next dirty =>
      rcases List.mem_append.mp member with here | rest
      · exact ⟨n, page, List.mem_cons_self, dirty, here⟩
      · split at rest
        · exact later rest
        · exact absurd rest List.not_mem_nil
    next => exact later member

/-- Where no write fails, every dirty page is written. -/
theorem purgeEvents_all (fine : ∀ page, succeeded (pageWriteStatus k cb m page) = true) (n : Nat) {page : CachedPage}
    (listed : page ∈ pages) (dirty : page.dirty = true) :
    ∃ slot, ∀ e ∈ pageWriteEvents cb m slot page, e ∈ purgeEvents k cb m n pages := by
  induction pages generalizing n with
  | nil => exact absurd listed List.not_mem_nil
  | cons q pages ih =>
    rw [purgeEvents]
    rcases List.mem_cons.mp listed with rfl | later
    · rw [if_pos (show (page.cached && page.modified) = true from dirty)]
      exact ⟨n, fun e member => List.mem_append_left _ member⟩
    · obtain ⟨slot, written⟩ := ih (n + 1) later
      refine ⟨slot, fun e member => ?_⟩
      split
      · rw [if_pos (fine q)]
        exact List.mem_append_right _ (written e member)
      · exact written e member

/-- Each cluster that a close asks for is one of a dirty page. -/
theorem ccFreeCacheMap_page {s : σ} {file : File} {c : Nat} (member : c ∈ clustersOf (ccFreeCacheMap k cb s file).events) :
    file.isCached = true ∧ ∃ page ∈ file.cacheMap.pageCacheMap, page.dirty = true ∧
      ∃ i < file.cacheMap.clustersPerPage, c = page.pageNumber * file.cacheMap.clustersPerPage + i := by
  obtain ⟨e, listed, cluster⟩ := List.mem_filterMap.mp member
  have purged : file.isCached = true ∧ e ∈ ccPurgeCacheFileEvents k cb file := by
    unfold ccFreeCacheMap at listed
    dsimp only at listed
    split at listed
    next cached =>
      refine ⟨cached, ?_⟩
      split at listed
      next =>
        rcases List.mem_append.mp listed with written | freed
        · exact written
        · rcases List.mem_append.mp freed with page | map
          · obtain ⟨_, _, rfl⟩ := freePages_frees e page
            cases cluster
          · simp only [List.mem_cons, List.not_mem_nil, or_false] at map
            rcases map with rfl | rfl <;> cases cluster
      next => exact listed
    next =>
      rw [List.mem_singleton.mp listed] at cluster
      cases cluster
  obtain ⟨slot, page, inMap, dirty, here⟩ := mem_purgeEvents purged.2
  refine ⟨purged.1, page, inMap, dirty, ?_⟩
  unfold pageWriteEvents at here
  cases writes : cb.actualWrite with
  | none => simp [writes] at here
  | some write =>
    rw [writes] at here
    obtain ⟨i, below, rfl⟩ := List.mem_map.mp here
    exact ⟨i, List.mem_range.mp below, (Option.some.inj cluster).symm⟩

/-- Where no write fails, a close asks for each cluster of a dirty page. -/
theorem ccFreeCacheMap_all {s : σ} {file : File} {page : CachedPage} {i : Nat} {write : CacheWrite σ}
    (fine : ∀ page, succeeded (pageWriteStatus k cb file.cacheMap page) = true) (writes : cb.actualWrite = some write)
    (cached : file.isCached = true) (listed : page ∈ file.cacheMap.pageCacheMap) (dirty : page.dirty = true)
    (below : i < file.cacheMap.clustersPerPage) :
    page.pageNumber * file.cacheMap.clustersPerPage + i ∈ clustersOf (ccFreeCacheMap k cb s file).events := by
  obtain ⟨slot, written⟩ := purgeEvents_all fine 0 listed dirty
  have here := written (.writeCluster slot (page.pageNumber * file.cacheMap.clustersPerPage + i) _)
    (mem_pageWriteEvents.mpr ⟨rfl, write, writes, i, below, rfl, rfl⟩)
  have event : ∀ e ∈ ccPurgeCacheFileEvents k cb file, e ∈ (ccFreeCacheMap k cb s file).events := by
    intro e listed
    unfold ccFreeCacheMap
    dsimp only
    rw [if_pos cached]
    split
    · exact List.mem_append_left _ listed
    · exact listed
  exact List.mem_filterMap.mpr ⟨_, event _ here, rfl⟩

end purging

end Gr8os.Cc
