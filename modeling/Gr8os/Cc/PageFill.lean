import Gr8os.Cc.CacheRuns

/-! A page of the cache against its clusters, for each cluster size that a file can be cached with. -/
namespace Gr8os.Cc

open Bytes

/-- A page inside the file is filled with its bytes and nothing else is, and what is written back are its bytes and no
others, by every driver that serves its clusters. -/
structure PageFilled (m : CacheMap) : Prop where
  read : ∀ {σ : Type} {cb : Callbacks σ} {byte : σ → Nat → BitVec 8} {size : Nat} {r : CacheRead σ} {p : Nat},
    Serves cb byte m.clusterSize size → cb.actualRead = some r →
    (∀ c, c * m.clusterSize < size → succeeded (r.status c) = true) → (p + 1) * 4096 ≤ size →
    ∀ (k : Resources) (s : σ) (b : Buffer),
      (∀ j < 4096, (ccpActualReadPage k cb s m p b).2 j = byte s (p * 4096 + j)) ∧
        ∀ j ≥ 4096, (ccpActualReadPage k cb s m p b).2 j = b j
  write : ∀ {σ : Type} {cb : Callbacks σ} {byte : σ → Nat → BitVec 8} {size : Nat} {w : CacheWrite σ} {page : CachedPage},
    Serves cb byte m.clusterSize size → cb.actualWrite = some w →
    (∀ c, c * m.clusterSize < size → succeeded (w.status c) = true) → (page.pageNumber + 1) * 4096 ≤ size →
    ∀ (k : Resources) (s : σ),
      (∀ j < 4096, byte (ccpActualWritePage k cb s m page).2 (page.pageNumber * 4096 + j) = page.buffer j) ∧
        ∀ i, i / 4096 ≠ page.pageNumber → byte (ccpActualWritePage k cb s m page).2 i = byte s i

section fill

variable {σ : Type} {m : CacheMap}

/-- Reading the clusters of a page writes inside the page. -/
theorem readClusters_outside (read : CacheRead σ) (divided : m.Divided) (s : σ) (p : Nat) {is : List Nat}
    (clusters : ∀ i ∈ is, i < m.clustersPerPage) (status : BitVec 32) (b : Buffer) {j : Nat} (outside : 4096 ≤ j) :
    (readClusters read m s p is status b).2 j = b j := by
  induction is generalizing status b with
  | nil => rfl
  | cons i is ih =>
    have below : (i + 1) * m.clusterSize ≤ 4096 :=
      divided ▸ Nat.mul_le_mul_right _ (clusters i List.mem_cons_self)
    rw [Nat.add_mul, Nat.one_mul] at below
    have kept (src : Buffer) : memcpy b (i * m.clusterSize) src 0 m.clusterSize j = b j :=
      memcpy_outside (Or.inr (by omega))
    rw [readClusters]
    split
    · exact kept _
    · split
      · exact kept _
      · rw [ih fun i member => clusters i (List.mem_cons_of_mem _ member)]
        exact kept _

theorem Divided.pageFilled (divided : m.Divided) : PageFilled m where
  read := by
    intro σ cb byte size r p serves reads succeeds inside k s b
    have all : AllRead cb m size p := by
      intro r' reads' i _ begins
      obtain rfl : r = r' := Option.some.inj (reads.symm.trans reads')
      exact succeeds _ begins
    have page : ccpActualReadPage k cb s m p b = readClusters r m s p (List.range m.clustersPerPage) k.unset b := by
      rw [ccpActualReadPage, reads]
    constructor
    · intro j below
      rw [page, List.range_eq_range']
      exact readClusters_bytes serves reads divided all s _ 0 (Nat.zero_add _) k.unset b
        (fun j below => by rw [Nat.zero_mul] at below; omega) j below (by omega)
    · intro j above
      rw [page]
      exact readClusters_outside r divided s p (fun i member => List.mem_range.mp member) k.unset b above
  write := by
    intro σ cb byte size w page serves writes succeeds inside k s
    have all : AllWritten w m size page.pageNumber := fun i _ begins => succeeds _ begins
    constructor
    · intro j below
      rw [ccpActualWritePage, writes, List.range_eq_range']
      exact writeClusters_bytes serves writes divided all _ 0 (Nat.zero_add _) k.unset s
        (fun j below => by rw [Nat.zero_mul] at below; omega) j below (by omega)
    · intro i elsewhere
      exact ccpActualWritePage_outside serves divided page (Ne.symm elsewhere) s

end fill

/-- A file in memory, by clusters of some size. -/
def sizedCallbacks (clusterSize : Nat) : Callbacks Buffer where
  actualRead := some { status := fun _ => Status.success.code, bytes := fun s c _ j => s (c * clusterSize + j) }
  actualWrite := some {
    status := fun _ => Status.success.code
    store := fun s c b => memcpy s (c * clusterSize) b 0 clusterSize }

theorem sizedCallbacks_serve (clusterSize size : Nat) :
    Serves (sizedCallbacks clusterSize) (id : Buffer → Buffer) clusterSize size where
  read := by
    intro r reads c _ s b j _ _
    cases Option.some.inj reads
    rfl
  ended := by
    intro r reads c ended
    cases Option.some.inj reads
    have different : ¬Status.success.code = Status.endOfFile.code := by decide
    exact absurd ended different
  write := by
    intro w writes c _ s b j below _
    cases Option.some.inj writes
    show memcpy s (c * clusterSize) b 0 clusterSize (c * clusterSize + j) = b j
    rw [memcpy_inside (Nat.le_add_right ..) (Nat.add_lt_add_left below _), Nat.zero_add, Nat.add_sub_cancel_left]
  other := by
    intro w writes c s b i outside
    cases Option.some.inj writes
    exact memcpy_outside outside

/-- A map that takes a page to have no clusters reads nothing. -/
theorem not_pageFilled {m : CacheMap} (none : m.clustersPerPage = 0) : ¬PageFilled m := by
  intro filled
  have succeeds : succeeded Status.success.code = true := by decide
  have page := (filled.read (sizedCallbacks_serve m.clusterSize 4096) rfl (fun _ _ => succeeds)
    (by decide : (0 + 1) * 4096 ≤ 4096)
    ⟨fun _ => some fun _ => 0, fun _ => true, fun _ => true, 0⟩ (fun _ => 1) fun _ => 0).1 0 (by decide)
  have untouched : ∀ k s b, (ccpActualReadPage k (sizedCallbacks m.clusterSize) s m 0 b).2 = b := by
    intro k s b
    simp [ccpActualReadPage, sizedCallbacks, none, readClusters]
  rw [untouched] at page
  exact absurd page (by decide)

/-- Of the cluster sizes that a file can be cached with, those above 16 bytes and below a page fill its pages: smaller ones
make a count that does not fit its byte, larger ones are not counted. -/
theorem pageFilled_iff {heap : Nat → Bool} {file file₀ : File} {clusterSize : Nat}
    (begun : ccInitializeFileCaching heap file clusterSize = some (Status.success.code, file₀)) :
    PageFilled file₀.cacheMap ↔ 16 < clusterSize ∧ clusterSize < pageSize := by
  obtain ⟨notZero, divides, n, _, rfl⟩ := ccInitializeFileCaching_map begun
  constructor
  · intro filled
    by_contra outside
    apply not_pageFilled _ filled
    show (if clusterSize < pageSize then pageSize / clusterSize % 256 else 0) = 0
    split
    · next smaller =>
      have tiny : clusterSize < 17 := by omega
      have whole := divides smaller
      clear begun filled outside divides smaller
      revert notZero whole
      revert clusterSize
      decide
    · rfl
  · rintro ⟨large, small⟩
    apply Divided.pageFilled
    -- The count of clusters is kept in a byte.
    have fits : pageSize / clusterSize < 256 := by
      rw [Nat.div_lt_iff_lt_mul (by omega)]
      unfold pageSize
      omega
    show (if clusterSize < pageSize then pageSize / clusterSize % 256 else 0) * clusterSize = 4096
    rw [if_pos small, Nat.mod_eq_of_lt fits]
    exact Nat.div_mul_cancel (Nat.dvd_of_mod_eq_zero (divides small))

theorem sectors_filled : PageFilled (opened false false).cacheMap :=
  (pageFilled_iff (rfl : ccInitializeFileCaching (fun _ => true) (opened false false) 512 =
    some (Status.success.code, opened false false))).mpr ⟨by decide, by decide⟩

/-- A file can be cached by clusters of a page each, of which none is read. -/
theorem wholePage_not_filled : ∃ file₀,
    ccInitializeFileCaching (fun _ => true) (opened false false) 4096 = some (Status.success.code, file₀) ∧
      ¬PageFilled file₀.cacheMap :=
  ⟨_, rfl, not_pageFilled rfl⟩

end Gr8os.Cc
