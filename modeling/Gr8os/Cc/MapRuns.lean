import Gr8os.Lib.Run
import Gr8os.Cc.CacheRuns
import Gr8os.Cc.MapCounts

/-! The counts of the cache map over reads, writes and purges of one file in any order. -/
namespace Gr8os.Cc

open Bytes Slots Runs

/-- The pages that a request reads from the disk: those without a copy, and the first one too when the request does
not look for it in the cache. -/
def visits (m : CacheMap) (fetch : Bool) (r : Request) : List Nat :=
  if fetch = true ∨ m.copyOf r.pageNumber = none then
    r.pageNumber :: if _ : r.More then visits m false r.next else []
  else if r.size ≤ r.readpart then [] else visits m false r.next
termination_by r.size
decreasing_by
  · rename_i more
    exact Request.next_size_lt more.1
  · have := r.readpart_pos
    simp only [Request.next]
    omega

theorem visits_fetch (m : CacheMap) (r : Request) :
    visits m true r = r.pageNumber :: if r.More then visits m false r.next else [] := by
  rw [visits, if_pos (Or.inl rfl)]
  rfl

theorem visits_missing {m : CacheMap} {r : Request} (missing : m.copyOf r.pageNumber = none) :
    visits m false r = visits m true r := by
  rw [visits_fetch, visits, if_pos (Or.inr missing)]
  rfl

theorem visits_copied {m : CacheMap} {r : Request} (copied : m.copyOf r.pageNumber ≠ none) :
    visits m false r = if r.size ≤ r.readpart then [] else visits m false r.next := by
  rw [visits, if_neg]
  simp [copied]

theorem visits_ge {m : CacheMap} {fetch : Bool} {r : Request} : ∀ p ∈ visits m fetch r, r.pageNumber ≤ p := by
  fun_induction visits m fetch r with
  | case1 fetch r missing ih =>
    intro p member
    rcases List.mem_cons.mp member with rfl | later
    · exact Nat.le_refl _
    · split at later
      · rename_i more
        exact Nat.le_of_succ_le (ih more p later)
      · exact absurd later List.not_mem_nil
  | case2 => exact fun p member => absurd member List.not_mem_nil
  | case3 fetch r copied long ih => exact fun p member => Nat.le_of_succ_le (ih p member)

theorem visits_nodup {m : CacheMap} {fetch : Bool} {r : Request} : (visits m fetch r).Nodup := by
  fun_induction visits m fetch r with
  | case1 fetch r missing ih =>
    split
    · rename_i more
      refine List.nodup_cons.mpr ⟨fun member => ?_, ih more⟩
      have later : r.pageNumber + 1 ≤ r.pageNumber := visits_ge _ member
      omega
    · exact List.pairwise_singleton ..
  | case2 => exact List.nodup_nil
  | case3 fetch r copied long ih => exact ih

theorem visits_congr {m m' : CacheMap} {fetch : Bool} {r : Request}
    (same : ∀ p, r.pageNumber ≤ p → (m'.copyOf p = none ↔ m.copyOf p = none)) :
    visits m' fetch r = visits m fetch r := by
  fun_induction visits m fetch r with
  | case1 fetch r missing ih =>
    rw [visits, if_pos (missing.imp_right (same _ (Nat.le_refl _)).mpr)]
    split
    · rename_i more
      rw [ih more fun p above => same p (Nat.le_of_succ_le above)]
    · rfl
  | case2 fetch r copied short =>
    have still : ¬(fetch = true ∨ m'.copyOf r.pageNumber = none) :=
      fun missing => copied (missing.imp_right (same _ (Nat.le_refl _)).mp)
    rw [visits, if_neg still, if_pos short]
  | case3 fetch r copied long ih =>
    have still : ¬(fetch = true ∨ m'.copyOf r.pageNumber = none) :=
      fun missing => copied (missing.imp_right (same _ (Nat.le_refl _)).mp)
    rw [visits, if_neg still, if_neg long]
    exact ih fun p above => same p (Nat.le_of_succ_le above)

theorem put_alike {m : CacheMap} {i : Nat} {slot page : CachedPage} (at_i : m.pageCacheMap[i]? = some slot)
    (cached : page.cached = slot.cached) (number : page.pageNumber = slot.pageNumber) : Alike m (m.put i page) where
  cachedPages := rfl
  maxCachedPages := List.length_set ..
  used := by
    have counts := countP_set (p := (·.cached)) (y := page) at_i
    rw [cached] at counts
    exact Nat.add_right_cancel counts
  copies q := by
    have counts := countP_set (p := CachedPage.holds q) (y := page) at_i
    have holds : page.holds q = slot.holds q := by
      unfold CachedPage.holds
      rw [cached, number]
    rw [holds] at counts
    exact Nat.add_right_cancel counts
  clustersPerPage := rfl

section Search

variable {writeOperation : Bool} {r : Request} {t : Transfer} {i n : Nat}

theorem copyPiece_alike {page : CachedPage} (here : t.cacheMap.pageCacheMap[i]? = some page) :
    Alike t.cacheMap (copyPiece writeOperation r i page n t).cacheMap := by
  cases writeOperation with
  | true => exact put_alike here rfl rfl
  | false => exact .refl _

theorem markModified_alike : Alike t.cacheMap (markModified writeOperation i t).cacheMap := by
  cases writeOperation with
  | false => exact .refl _
  | true =>
    show Alike t.cacheMap { t.cacheMap with pageCacheMap := t.cacheMap.pageCacheMap.modify i _ }
    cases here : t.cacheMap.pageCacheMap[i]? with
    | none =>
      rw [List.modify_eq_self (List.getElem?_eq_none_iff.mp here)]
      exact .refl _
    | some page =>
      rw [List.modify_eq_set_getElem?, here]
      exact put_alike here rfl rfl

/-- Where a search stops: at the end of the request, or at the first page that has no copy. -/
structure Stopped (m : CacheMap) (r : Request) (res : BitVec 32 × Request × Transfer) : Prop where
  alike : Alike m res.2.2.cacheMap
  above : r.pageNumber ≤ res.2.1.pageNumber
  found : res.1 ≠ Status.notFound.code → visits m false r = []
  missing : res.1 = Status.notFound.code → visits m false r = visits m true res.2.1

theorem repeatRead_stopped (writeOperation : Bool) (r : Request) (t : Transfer) :
    Stopped t.cacheMap r (repeatRead writeOperation r t) := by
  fun_induction repeatRead writeOperation r t with
  | case1 r t none =>
    refine ⟨.refl _, Nat.le_refl _, fun other => absurd rfl other, fun _ => ?_⟩
    exact visits_missing (find?_none_of_findIdx? none)
  | case2 r t i found page short =>
    have copied : t.cacheMap.copyOf r.pageNumber = some page := getD_of_findIdx? found
    have here : t.cacheMap.pageCacheMap[i]? = some page := (find?_of_findIdx? found).symm.trans copied
    have different : ¬Status.success.code = Status.notFound.code := by decide
    refine ⟨(copyPiece_alike here).trans markModified_alike, Nat.le_refl _, fun _ => ?_, fun same => absurd same different⟩
    rw [visits_copied (by simp [copied]), if_pos short]
  | case3 r t i found page long ih =>
    have copied : t.cacheMap.copyOf r.pageNumber = some page := getD_of_findIdx? found
    have here : t.cacheMap.pageCacheMap[i]? = some page := (find?_of_findIdx? found).symm.trans copied
    have alike : Alike t.cacheMap (copyPiece writeOperation r i page r.readpart t).cacheMap := copyPiece_alike here
    have first : visits t.cacheMap false r = visits t.cacheMap false r.next := by
      rw [visits_copied (by simp [copied]), if_neg long]
    have same : ∀ fetch r', visits (copyPiece writeOperation r i page r.readpart t).cacheMap fetch r' =
        visits t.cacheMap fetch r' := fun fetch r' => visits_congr fun p _ => alike.copyOf p
    refine ⟨alike.trans ih.alike, Nat.le_of_succ_le ih.above, fun other => ?_, fun stopped => ?_⟩
    · rw [first, ← same]
      exact ih.found other
    · rw [first, ← same, ih.missing stopped]
      exact same _ _

end Search

section Calls

variable {σ : Type}

/-- The page can be read. -/
def pageReads (k : Resources) (cb : Callbacks σ) (m : CacheMap) (p : Nat) : Bool :=
  succeeded (pageStatus k cb m.clustersPerPage p)

/-- A piece of a transfer puts its page into the cache, or leaves the map as it is. -/
def PieceCaches (k : Resources) (f : Nat → Bool) (clustersPerPage : Nat)
    (piece : Request → Buffer → Transfer → BitVec 32 × Transfer) : Prop :=
  ∀ r b t, t.cacheMap.clustersPerPage = clustersPerPage →
    if f r.pageNumber = true then Put k t.cacheMap (piece r b t).2.cacheMap r.pageNumber
    else (piece r b t).2.cacheMap = t.cacheMap

theorem readPiece_caches (k : Resources) (cb : Callbacks σ) (s : σ) (m : CacheMap) :
    PieceCaches k (pageReads k cb m) m.clustersPerPage (readPiece k cb s true) := by
  intro r b t clusters
  have status := ccpActualReadPage_status k cb s t.cacheMap r.pageNumber b
  rw [clusters] at status
  unfold readPiece pageReads
  dsimp only
  rw [status]
  split
  · exact ccpCacheFilePage_put ..
  · rfl

theorem readPiece_through (k : Resources) (cb : Callbacks σ) (s : σ) (m : CacheMap) :
    PieceCaches k (fun _ => false) m.clustersPerPage (readPiece k cb s false) := by
  intro r b t clusters
  rw [if_neg Bool.false_ne_true]
  unfold readPiece
  dsimp only
  split <;> rfl

theorem writePiece_caches (k : Resources) (cb : Callbacks σ) (s : σ) (m : CacheMap) :
    PieceCaches k (pageReads k cb m) m.clustersPerPage (writePiece k cb s) := by
  intro r b t clusters
  have status := ccpActualReadPage_status k cb s t.cacheMap r.pageNumber b
  rw [clusters] at status
  unfold writePiece pageReads
  dsimp only
  rw [status]
  split
  · exact ccpCacheFilePage_put ..
  · rfl

section Transfer

variable {k : Resources} {f : Nat → Bool} {piece : Request → Buffer → Transfer → BitVec 32 × Transfer}
  {writeOperation : Bool} {r : Request} {t : Transfer}

theorem PieceCaches.puts {b : Buffer} {ps : List Nat} {m' : CacheMap} {clustersPerPage : Nat}
    (caches : PieceCaches k f clustersPerPage piece) (clusters : t.cacheMap.clustersPerPage = clustersPerPage)
    (rest : Puts k (piece r b t).2.cacheMap (ps.filter f) m') :
    Puts k t.cacheMap ((r.pageNumber :: ps).filter f) m' := by
  have first := caches r b t clusters
  cases kept : f r.pageNumber with
  | true =>
    rw [List.filter_cons_of_pos kept]
    rw [if_pos kept] at first
    exact .put (.refl _) first rest
  | false =>
    rw [List.filter_cons_of_neg (by simp [kept])]
    rw [if_neg (by simp [kept])] at first
    exact first ▸ rest

/-- The first page of a transfer does not change which later pages have copies. -/
theorem PieceCaches.later {b : Buffer} {clustersPerPage : Nat} (caches : PieceCaches k f clustersPerPage piece)
    (clusters : t.cacheMap.clustersPerPage = clustersPerPage) {p : Nat} (above : r.pageNumber < p) :
    (piece r b t).2.cacheMap.copyOf p = none ↔ t.cacheMap.copyOf p = none := by
  have first := caches r b t clusters
  split at first
  · rw [← copies_zero_iff, ← copies_zero_iff, first.copies_of_ne (Nat.ne_of_gt above)]
  · rw [first]

theorem PieceCaches.clusters {b : Buffer} {clustersPerPage : Nat} (caches : PieceCaches k f clustersPerPage piece)
    (clusters : t.cacheMap.clustersPerPage = clustersPerPage) :
    (piece r b t).2.cacheMap.clustersPerPage = clustersPerPage := by
  have first := caches r b t clusters
  split at first
  · exact first.clustersPerPage.trans clusters
  · rw [first]
    exact clusters

/-- So the later pages that a transfer reads are known before its first one is read. -/
theorem PieceCaches.visits_next {b : Buffer} {clustersPerPage : Nat} (caches : PieceCaches k f clustersPerPage piece)
    (clusters : t.cacheMap.clustersPerPage = clustersPerPage) :
    visits (piece r b t).2.cacheMap false r.next = visits t.cacheMap false r.next :=
  visits_congr fun _ above => caches.later clusters above

/-- A transfer puts the pages it reads into the cache, one after another. -/
theorem ccpActual_puts {res : BitVec 32 × Transfer} {clustersPerPage : Nat}
    (caches : PieceCaches k f clustersPerPage piece) (clusters : t.cacheMap.clustersPerPage = clustersPerPage)
    (ends : ccpActual k piece writeOperation r t = some res) :
    Puts k t.cacheMap ((visits t.cacheMap true r).filter f) res.2.cacheMap := by
  fun_induction ccpActual k piece writeOperation r t with
  | case1 => contradiction
  | case2 r t tempPage allocated status t₁ first more found missing ih =>
    have after : (piece r tempPage t).2 = t₁ := by rw [first]
    have stopped : Stopped t₁.cacheMap r.next found := repeatRead_stopped writeOperation r.next { t₁ with nBytes := 0 }
    have kept := (caches.clusters (r := r) (b := tempPage) clusters)
    rw [after] at kept
    have rest := ih (stopped.alike.clustersPerPage.trans kept) ends
    have same : visits found.2.2.cacheMap true found.2.1 = visits t₁.cacheMap true found.2.1 :=
      visits_congr fun p _ => stopped.alike.copyOf p
    have next : visits t₁.cacheMap false r.next = visits t.cacheMap false r.next := by
      rw [← after]
      exact caches.visits_next clusters
    rw [visits_fetch, if_pos more]
    apply caches.puts (b := tempPage) clusters
    rw [after, ← next, stopped.missing missing, ← same]
    exact rest.of_alike stopped.alike
  | case3 r t tempPage allocated status t₁ first more found present =>
    cases Option.some.inj ends
    have after : (piece r tempPage t).2 = t₁ := by rw [first]
    have stopped : Stopped t₁.cacheMap r.next found := repeatRead_stopped writeOperation r.next { t₁ with nBytes := 0 }
    have next : visits t₁.cacheMap false r.next = visits t.cacheMap false r.next := by
      rw [← after]
      exact caches.visits_next clusters
    rw [visits_fetch, if_pos more]
    apply caches.puts (b := tempPage) clusters
    rw [after, ← next, stopped.found present]
    exact .done stopped.alike
  | case4 r t tempPage allocated status t₁ first short =>
    cases Option.some.inj ends
    have after : (piece r tempPage t).2 = t₁ := by rw [first]
    rw [visits_fetch, if_neg short]
    apply caches.puts (b := tempPage) clusters
    rw [after]
    exact .done (.refl _)

theorem countRebuild_alike (m : CacheMap) : Alike m (countRebuild m) := by
  unfold countRebuild ccpRebuildCacheMap
  dsimp only
  split <;> exact ⟨rfl, rfl, rfl, fun _ => rfl, rfl⟩

theorem afterSearch_puts {res : BitVec 32 × Transfer} {clustersPerPage : Nat}
    (caches : PieceCaches k f clustersPerPage piece) (clusters : t.cacheMap.clustersPerPage = clustersPerPage)
    (ends : afterSearch (ccpActual k piece writeOperation) (ccpFindAndReadWrite writeOperation r t) = some res) :
    Puts k t.cacheMap ((visits t.cacheMap false r).filter f) res.2.cacheMap := by
  have stopped : Stopped t.cacheMap r (ccpFindAndReadWrite writeOperation r t) :=
    repeatRead_stopped writeOperation r { t with nBytes := 0 }
  generalize ccpFindAndReadWrite writeOperation r t = found at stopped ends
  unfold afterSearch at ends
  by_cases missing : found.1 = Status.notFound.code
  · simp only [missing, if_true, Option.bind_eq_bind, Option.bind_map, Option.bind_eq_some_iff, Option.some.injEq,
      Function.comp_apply] at ends
    obtain ⟨res', transferred, rfl⟩ := ends
    have rest := ccpActual_puts caches (stopped.alike.clustersPerPage.trans clusters) transferred
    have same : visits found.2.2.cacheMap true found.2.1 = visits t.cacheMap true found.2.1 :=
      visits_congr fun p _ => stopped.alike.copyOf p
    rw [stopped.missing missing, ← same]
    exact (rest.of_alike stopped.alike).alike (countRebuild_alike _)
  · simp only [if_neg missing, Option.bind_eq_bind, Option.bind_some, Option.some.injEq] at ends
    cases ends
    rw [stopped.found missing]
    exact .done (stopped.alike.trans (countRebuild_alike _))

end Transfer

/-- The routines of the driver and the resources are what they are during the call. -/
inductive CacheCall (σ : Type)
  | read (k : Resources) (cb : Callbacks σ) (offset : BitVec 32) (buffer : Buffer) (size nBytesRead : BitVec 32)
  | write (k : Resources) (cb : Callbacks σ) (offset : BitVec 32) (buffer : Buffer) (size nBytesWritten : BitVec 32)
  | purge (k : Resources) (cb : Callbacks σ)

namespace CacheCall

/-- The file and its backing store after the call, if the machine still runs. -/
def perform (checked : Bool) (t : File × σ) : CacheCall σ → Option (File × σ)
  | .read k cb offset buffer size nBytesRead =>
    (ccCacheReadFile checked k cb t.2 t.1 offset buffer size nBytesRead).map fun res =>
      ({ t.1 with cacheMap := res.2.cacheMap }, t.2)
  | .write k cb offset buffer size nBytesWritten =>
    (ccCacheWriteFile checked k cb t.2 t.1 offset buffer size nBytesWritten).map fun res =>
      ({ t.1 with cacheMap := res.2.cacheMap }, t.2)
  | .purge k cb =>
    let (_, file, store) := ccPurgeCacheFile k cb t.2 t.1
    some (file, store)

def resources : CacheCall σ → Resources
  | .read k .. => k
  | .write k .. => k
  | .purge k _ => k

/-- The pages that the call reads from the disk for the cache. A read past the cache keeps none of its pages, and a
write past the cache begins with its first page whether that has a copy or not. -/
def forCache (file : File) : CacheCall σ → List Nat
  | .read k cb offset _ size _ =>
    if file.readThrough then []
    else (visits file.cacheMap false (.start offset size)).filter (pageReads k cb file.cacheMap)
  | .write k cb offset _ size _ =>
    (visits file.cacheMap file.writeThrough (.start offset size)).filter (pageReads k cb file.cacheMap)
  | .purge .. => []

/-- None of these pages has a copy yet, each gets a buffer and a slot, and the table is not doubled past its limit. -/
def Fitting (file : File) (call : CacheCall σ) : Prop := CanPut call.resources file.cacheMap (call.forCache file)

/-- The map is in order, and what was just read for it is in it if there was a buffer. -/
def Kept (file : File) (m' : CacheMap) (call : CacheCall σ) : Prop :=
  MapOk m' ∧ ∀ p ∈ call.forCache file, call.resources.cachedPage p = true → m'.copyOf p ≠ none

end CacheCall

variable {checked : Bool} {t t' : File × σ} {call : CacheCall σ}

theorem purge_alike (k : Resources) (cb : Callbacks σ) (s : σ) (file : File) :
    Alike file.cacheMap (ccPurgeCacheFile k cb s file).2.1.cacheMap := by
  have same : (ccPurgeCacheFile k cb s file).2.1.cacheMap.pageCacheMap.map CachedPage.unmark =
      file.cacheMap.pageCacheMap.map CachedPage.unmark := purgePages_unmark _ _ _
  refine ⟨rfl, ?_, ccPurgeCacheFile_used, fun p => ?_, rfl⟩
  · have lengths := congrArg List.length same
    rw [List.length_map, List.length_map] at lengths
    exact lengths
  · have counts : ∀ pages : List CachedPage,
        (pages.map CachedPage.unmark).countP (CachedPage.holds p) = pages.countP (CachedPage.holds p) :=
      fun pages => List.countP_map
    unfold CacheMap.copies
    rw [← counts, same, counts]

theorem perform_puts (done : call.perform checked t = some t') :
    Puts call.resources t.1.cacheMap (call.forCache t.1) t'.1.cacheMap := by
  cases call with
  | read k cb offset buffer size nBytesRead =>
    obtain ⟨res, ends, rfl⟩ := Option.map_eq_some_iff.mp done
    unfold ccCacheReadFile at ends
    dsimp only at ends
    split at ends
    · contradiction
    · simp only [CacheCall.forCache]
      split at ends
      · rename_i through
        have puts := ccpActual_puts (readPiece_through k cb t.2 t.1.cacheMap) rfl ends
        rw [if_pos through]
        rw [List.filter_false] at puts
        exact puts
      · rename_i cached
        rw [if_neg cached]
        exact afterSearch_puts (readPiece_caches k cb t.2 t.1.cacheMap)
          (t := { cacheMap := t.1.cacheMap, buffer := buffer, nBytes := nBytesRead }) rfl ends
  | write k cb offset buffer size nBytesWritten =>
    obtain ⟨res, ends, rfl⟩ := Option.map_eq_some_iff.mp done
    unfold ccCacheWriteFile at ends
    dsimp only at ends
    split at ends
    · contradiction
    · simp only [CacheCall.forCache]
      split at ends
      · rename_i through
        rw [through]
        exact ccpActual_puts (writePiece_caches k cb t.2 t.1.cacheMap) rfl ends
      · rename_i cached
        rw [Bool.eq_false_iff.mpr cached]
        exact afterSearch_puts (writePiece_caches k cb t.2 t.1.cacheMap)
          (t := { cacheMap := t.1.cacheMap, buffer := buffer, nBytes := nBytesWritten }) rfl ends
  | purge k cb =>
    cases Option.some.inj done
    exact .done (purge_alike k cb t.2 t.1)

theorem forCache_nodup (file : File) : (call.forCache file).Nodup := by
  cases call with
  | read k cb offset buffer size nBytesRead =>
    simp only [CacheCall.forCache]
    split
    · exact List.nodup_nil
    · exact visits_nodup.filter _
  | write k cb offset buffer size nBytesWritten => exact visits_nodup.filter _
  | purge k cb => exact List.nodup_nil

theorem perform_kept_iff (ok : MapOk t.1.cacheMap) (done : call.perform checked t = some t') :
    call.Kept t.1 t'.1.cacheMap ↔ call.Fitting t.1 := by
  have puts := perform_puts done
  have kept := puts.ok_iff (forCache_nodup t.1) ok
  constructor
  · intro after
    exact kept.mp after.1
  · intro fitting
    have ok' := kept.mpr fitting
    exact ⟨ok', fun p member _ => puts.kept (Nat.le_of_eq ok.counted.symm) ok' p member⟩

theorem blank_ok {m : CacheMap} {n : Nat} (uncounted : m.cachedPages = 0)
    (blank : m.pageCacheMap = List.replicate n {}) (bounded : n ≤ maxCachedPagesLimit) : MapOk m := by
  have cached : ({} : CachedPage).cached = false := rfl
  refine ⟨fun p => ?_, ?_, ?_⟩
  · have holds : ({} : CachedPage).holds p = false := rfl
    rw [blank, List.countP_replicate, holds]
    exact Nat.zero_le 1
  · rw [uncounted, CacheMap.used, blank, List.countP_replicate, cached]
    rfl
  · rw [CacheMap.maxCachedPages, blank, List.length_replicate]
    exact bounded

theorem ccInitializeFileCaching_ok {heap : Nat → Bool} {file file₀ : File} {clusterSize : Nat}
    (begun : ccInitializeFileCaching heap file clusterSize = some (Status.success.code, file₀)) :
    MapOk file₀.cacheMap := by
  obtain ⟨_, _, n, most, rfl⟩ := ccInitializeFileCaching_map begun
  exact blank_ok rfl rfl (Nat.le_trans most (by decide : minCachedPages ≤ maxCachedPagesLimit))

/-- As long as the pages of each call fit the map stays in order; and a call keeps it in order, with what it just
read for the cache in it, exactly if its pages fit. -/
theorem cacheMap_ok_iff {heap : Nat → Bool} {file file₀ : File} {clusterSize : Nat} {store : σ}
    {calls : List (CacheCall σ)}
    (begun : ccInitializeFileCaching heap file clusterSize = some (Status.success.code, file₀))
    (run : Run (Guarded (fun t call => CacheCall.Fitting t.1 call) fun t call t' => call.perform checked t = some t')
      (file₀, store) calls t) :
    MapOk t.1.cacheMap ∧ ∀ call t', CacheCall.perform checked t call = some t' →
      (call.Kept t.1 t'.1.cacheMap ↔ call.Fitting t.1) := by
  have ok : MapOk t.1.cacheMap := by
    refine run.invariant (I := fun t => MapOk t.1.cacheMap) ?_ (ccInitializeFileCaching_ok begun)
    intro t call t' ok step
    exact ((perform_kept_iff ok step.2).mpr step.1).1
  exact ⟨ok, fun call t' done => perform_kept_iff ok done⟩

end Calls

/-- A byte is read while no page is left to keep its page in. -/
def readWithoutBuffer : CacheCall Buffer :=
  .read { enough with cachedPage := fun _ => false } memoryCallbacks 0 (fun _ => 0) 1 0

def readWithBuffer : CacheCall Buffer := .read enough memoryCallbacks 0 (fun _ => 0) 1 0

theorem firstRead_performs (k : Resources) (page : k.tempPage 0 = some fun _ => 0) : ∃ t',
    (CacheCall.read k memoryCallbacks 0 (fun _ => 0) 1 0).perform true (opened false false, fun _ => 0) = some t' := by
  have missing : ccpFindAndReadWrite false (Request.start 0 1) ⟨freshMap 512 32, fun _ => 0, 0⟩ =
      (Status.notFound.code, Request.start 0 1, ⟨freshMap 512 32, fun _ => 0, 0⟩) := repeatRead_missing rfl
  have one_page : ¬(Request.start 0 1).More := by decide
  have transfer : ccCacheReadFile true k memoryCallbacks (fun _ => 0) (opened false false) 0 (fun _ => 0) 1 0 =
      afterSearch (ccpActualRead k memoryCallbacks (fun _ => 0) true)
        (Status.notFound.code, Request.start 0 1, ⟨freshMap 512 32, fun _ => 0, 0⟩) := missing ▸ rfl
  have number : (Request.start 0 1).pageNumber = 0 := rfl
  show ∃ t', (ccCacheReadFile true k memoryCallbacks (fun _ => 0) (opened false false) 0 (fun _ => 0) 1 0).map _ = some t'
  rw [transfer, afterSearch, if_pos rfl, ccpActualRead, ccpActual_once one_page, number, page]
  exact ⟨_, rfl⟩

theorem firstRead_forCache (k : Resources) :
    (CacheCall.read k memoryCallbacks 0 (fun _ => 0) 1 0).forCache (opened false false) = [0] := by
  have missing : (freshMap 512 32).copyOf (Request.start 0 1).pageNumber = none := freshMap_copyOf 512 32 _
  have one_page : ¬(Request.start 0 1).More := by decide
  show (visits (freshMap 512 32) false (Request.start 0 1)).filter (pageReads k memoryCallbacks (freshMap 512 32)) = [0]
  rw [visits_missing missing, visits_fetch, if_neg one_page]
  rfl

/-- The page is counted although it is not cached. -/
theorem uncachedPage_counted : ∃ t',
    ccInitializeFileCaching (fun _ => true) (opened false false) 512 = some (Status.success.code, opened false false) ∧
    readWithoutBuffer.perform true (opened false false, fun _ => 0) = some t' ∧
    t'.1.cacheMap.cachedPages = 1 ∧ t'.1.cacheMap.used = 0 := by
  obtain ⟨t', done⟩ := firstRead_performs { enough with cachedPage := fun _ => false } rfl
  have pages : readWithoutBuffer.forCache (opened false false) = [0] := firstRead_forCache _
  have puts : Puts readWithoutBuffer.resources (freshMap 512 32) [0] t'.1.cacheMap := pages ▸ perform_puts done
  refine ⟨t', rfl, done, ?_⟩
  cases puts with
  | put before put rest =>
    cases rest with
    | done after =>
      have unplaced : ∀ m, ¬Placed readWithoutBuffer.resources m 0 := fun m placed => absurd placed.1 Bool.false_ne_true
      constructor
      · rw [after.cachedPages, put.cachedPages, before.cachedPages]
        rfl
      · rw [after.used, put.used, if_neg (unplaced _), before.used]
        rfl

theorem cachedPage_kept : ∃ t', readWithBuffer.perform true (opened false false, fun _ => 0) = some t' ∧
    readWithBuffer.Kept (opened false false) t'.1.cacheMap := by
  have begun : ccInitializeFileCaching (fun _ => true) (opened false false) 512 =
    some (Status.success.code, opened false false) := rfl
  obtain ⟨t', done⟩ := firstRead_performs enough rfl
  refine ⟨t', done, ((cacheMap_ok_iff begun (.done _)).2 readWithBuffer t' done).mpr ?_⟩
  have pages : readWithBuffer.forCache (opened false false) = [0] := firstRead_forCache _
  show CanPut enough (freshMap 512 32) (readWithBuffer.forCache (opened false false))
  rw [pages]
  exact ⟨fun p _ => freshMap_copyOf 512 32 p, rfl, by decide, by decide, trivial⟩

end Gr8os.Cc
