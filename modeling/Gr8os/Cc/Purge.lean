import Gr8os.Cc.Writes

/-! The purge: what it stores, which marks it takes away, and that it leaves the file that the cache shows alone. -/
namespace Gr8os.Cc

open Bytes

section Store

variable {σ : Type} {k : Resources} {cb : Callbacks σ} {byte : σ → Nat → BitVec 8} {m : CacheMap} {size : Nat} {s : σ}

/-- No cluster of the page that begins inside the file fails to be written. -/
def AllWritten (write : CacheWrite σ) (m : CacheMap) (size p : Nat) : Prop :=
  ∀ i, i < m.clustersPerPage → (p * m.clustersPerPage + i) * m.clusterSize < size →
    succeeded (write.status (p * m.clustersPerPage + i)) = true

/-- The last cluster of a page, whose status is the page's, is no success when a cluster inside the file failed. -/
def HonestWrite (cb : Callbacks σ) (m : CacheMap) (size p : Nat) : Prop :=
  ∀ w, cb.actualWrite = some w →
    succeeded (w.status (p * m.clustersPerPage + (m.clustersPerPage - 1))) = true → AllWritten w m size p

theorem writeClusters_outside {w : CacheWrite σ} (serves : Serves cb byte m.clusterSize size)
    (writes : cb.actualWrite = some w) (divided : m.Divided) {page : CachedPage} {is : List Nat}
    (clusters : ∀ i ∈ is, i < m.clustersPerPage) {n : Nat} (elsewhere : page.pageNumber ≠ n / 4096)
    (status : BitVec 32) (s : σ) : byte (writeClusters w m page is status s).2 n = byte s n := by
  induction is generalizing status s with
  | nil => rfl
  | cons i is ih =>
    have start := divided.start page.pageNumber i
    have below : (i + 1) * m.clusterSize ≤ 4096 :=
      divided ▸ Nat.mul_le_mul_right _ (clusters i List.mem_cons_self)
    rw [Nat.add_mul, Nat.one_mul] at below
    have outside : n < (page.pageNumber * m.clustersPerPage + i) * m.clusterSize ∨
        (page.pageNumber * m.clustersPerPage + i) * m.clusterSize + m.clusterSize ≤ n := by
      rw [start]
      omega
    rw [writeClusters, ih fun j member => clusters j (List.mem_cons_of_mem _ member)]
    exact serves.other writes _ _ _ _ outside

theorem writeClusters_status (w : CacheWrite σ) (page : CachedPage) (n i : Nat) (status : BitVec 32) (s : σ) :
    (writeClusters w m page (List.range' i (n + 1)) status s).1 =
      w.status (page.pageNumber * m.clustersPerPage + (i + n)) := by
  induction n generalizing i status s with
  | zero => rfl
  | succ n ih =>
    rw [List.range'_succ, writeClusters, ih (i + 1)]
    congr 2
    omega

theorem writeClusters_bytes {w : CacheWrite σ} (serves : Serves cb byte m.clusterSize size)
    (writes : cb.actualWrite = some w) (divided : m.Divided) {page : CachedPage}
    (all : AllWritten w m size page.pageNumber) (n i : Nat) (whole : i + n = m.clustersPerPage) (status : BitVec 32)
    (s : σ) (before : ∀ j, j < i * m.clusterSize → page.pageNumber * 4096 + j < size →
      byte s (page.pageNumber * 4096 + j) = page.buffer j) :
    ∀ j, j < 4096 → page.pageNumber * 4096 + j < size →
      byte (writeClusters w m page (List.range' i n) status s).2 (page.pageNumber * 4096 + j) = page.buffer j := by
  induction n generalizing i status s with
  | zero =>
    intro j below inside
    have : i * m.clusterSize = 4096 := by
      rw [← divided, ← whole]
      rfl
    exact before j (by omega) inside
  | succ n ih =>
    have start := divided.start page.pageNumber i
    rw [List.range'_succ, writeClusters]
    apply ih (i + 1) (by omega)
    intro j below inside
    rw [Nat.add_mul, Nat.one_mul] at below
    by_cases earlier : j < i * m.clusterSize
    · rw [serves.other writes _ _ _ _ (Or.inl (by omega))]
      exact before j earlier inside
    · have succeeds := all i (by omega) (by omega)
      have stored := serves.write writes _ succeeds s (fun j => page.buffer (i * m.clusterSize + j))
        (j - i * m.clusterSize) (by omega) (by omega)
      have place : (page.pageNumber * m.clustersPerPage + i) * m.clusterSize + (j - i * m.clusterSize) =
        page.pageNumber * 4096 + j := by omega
      have index : i * m.clusterSize + (j - i * m.clusterSize) = j := by omega
      rw [place, index] at stored
      exact stored

theorem ccpActualWritePage_outside (serves : Serves cb byte m.clusterSize size) (divided : m.Divided)
    (page : CachedPage) {n : Nat} (elsewhere : page.pageNumber ≠ n / 4096) (s : σ) :
    byte (ccpActualWritePage k cb s m page).2 n = byte s n := by
  unfold ccpActualWritePage
  cases writes : cb.actualWrite with
  | none => rfl
  | some w => exact writeClusters_outside serves writes divided (fun i member => List.mem_range.mp member) elsewhere _ _

theorem ccpActualWritePage_bytes (serves : Serves cb byte m.clusterSize size) (divided : m.Divided)
    (page : CachedPage) (honest : HonestWrite cb m size page.pageNumber) (s : σ)
    (succeeds : succeeded (ccpActualWritePage k cb s m page).1 = true) (n : Nat) (inside : n < size)
    (here : n / 4096 = page.pageNumber) :
    byte (ccpActualWritePage k cb s m page).2 n = page.buffer (n % 4096) := by
  unfold ccpActualWritePage at *
  cases writes : cb.actualWrite with
  | none =>
    have fails : succeeded Status.notSupported.code = false := by decide
    simp [writes, fails] at succeeds
  | some w =>
    have place : page.pageNumber * 4096 + n % 4096 = n := by omega
    have some_cluster : m.clustersPerPage - 1 + 1 = m.clustersPerPage := by
      have divides : m.clustersPerPage * m.clusterSize = 4096 := divided
      cases count : m.clustersPerPage with
      | zero => simp [count] at divides
      | succ _ => rfl
    have status := writeClusters_status (m := m) w page (m.clustersPerPage - 1) 0 k.unset s
    rw [some_cluster, Nat.zero_add, ← List.range_eq_range'] at status
    simp only [writes, status] at succeeds
    have stored := writeClusters_bytes serves writes divided (honest w writes succeeds) m.clustersPerPage 0
      (Nat.zero_add _) k.unset s (fun j below => by simp at below) (n % 4096) (Nat.mod_lt _ (by decide))
      (by omega)
    rw [place, ← List.range_eq_range'] at stored
    exact stored

def CachedPage.unmark (page : CachedPage) : CachedPage := { page with modified := false }

theorem purgePages_unmark (pages : List CachedPage) (status : BitVec 32) (s : σ) :
    (purgePages k cb m pages status s).2.1.map CachedPage.unmark = pages.map CachedPage.unmark := by
  induction pages generalizing status s with
  | nil => rfl
  | cons page pages ih =>
    rw [purgePages]
    split
    · dsimp only
      split
      · simp only [List.map_cons, ih]
        rfl
      · rfl
    · simp only [List.map_cons, ih]

theorem purgePages_outside (serves : Serves cb byte m.clusterSize size) (divided : m.Divided) {n : Nat}
    {pages : List CachedPage}
    (elsewhere : ∀ page ∈ pages, page.cached = true → page.modified = true → page.pageNumber ≠ n / 4096)
    (status : BitVec 32) (s : σ) : byte (purgePages k cb m pages status s).2.2 n = byte s n := by
  induction pages generalizing status s with
  | nil => rfl
  | cons page pages ih =>
    have rest := ih fun other member => elsewhere other (List.mem_cons_of_mem _ member)
    rw [purgePages]
    split
    · rename_i marked
      rw [Bool.and_eq_true] at marked
      have here := elsewhere page List.mem_cons_self marked.1 marked.2
      have written := ccpActualWritePage_outside (k := k) serves divided page here s
      dsimp only
      split
      · rw [rest, written]
      · exact written
    · rw [rest]

/-- What the purge makes of the copy that a search for a page finds. -/
structure Purged (byte : σ → Nat → BitVec 8) (size p : Nat) (page page' : CachedPage) (res : BitVec 32 × σ) :
    Prop where
  same : page'.unmark = page.unmark
  marked : page'.modified = true → page.modified = true
  stored : page.modified = true → page'.modified = false → ∀ n, n < size → n / 4096 = p →
    byte res.2 n = page.buffer (n % 4096)
  clean : succeeded res.1 = true → page'.modified = false

theorem Purged.kept {p : Nat} {page : CachedPage} {res : BitVec 32 × σ}
    (clean : succeeded res.1 = true → page.modified = false) : Purged byte size p page page res where
  same := rfl
  marked := id
  stored marked unmarked := absurd (marked.symm.trans unmarked) (by decide)
  clean := clean

theorem purgePages_found (serves : Serves cb byte m.clusterSize size) (divided : m.Divided) {p : Nat}
    {pages : List CachedPage} (only : pages.countP (CachedPage.holds p) ≤ 1)
    (honest : HonestWrite cb m size p) {page : CachedPage} (found : pages.find? (CachedPage.holds p) = some page)
    (status : BitVec 32) (s : σ) :
    ∃ page', (purgePages k cb m pages status s).2.1.find? (CachedPage.holds p) = some page' ∧
      Purged byte size p page page'
        ((purgePages k cb m pages status s).1, (purgePages k cb m pages status s).2.2) := by
  induction pages generalizing status s with
  | nil => cases found
  | cons first pages ih =>
    rw [List.find?_cons] at found
    rw [List.countP_cons] at only
    rw [purgePages]
    cases holds : first.holds p with
    | true =>
      rw [holds] at found
      cases Option.some.inj found
      obtain ⟨cached, number⟩ := CachedPage.holds_iff.mp holds
      cases marked : page.modified with
      | false =>
        simp only [Bool.and_false, Bool.false_eq_true, if_false, List.find?_cons, holds]
        exact ⟨page, rfl, .kept fun _ => marked⟩
      | true =>
        have write : (page.cached && true) = true := by rw [cached, Bool.and_self]
        simp only [write, if_true]
        cases written : succeeded (ccpActualWritePage k cb s m page).1 with
        | false =>
          simp only [Bool.false_eq_true, if_false, List.find?_cons, holds]
          exact ⟨page, rfl, .kept fun succeeds => absurd (written.symm.trans succeeds) (by decide)⟩
        | true =>
          have still : page.unmark.holds p = true := holds
          have unmarked : page.unmark.modified = false := rfl
          simp only [if_true]
          refine ⟨page.unmark, (List.find?_cons_of_pos still), rfl, ?_, ?_, fun _ => unmarked⟩
          · exact fun marked => absurd (unmarked.symm.trans marked) (by decide)
          · intro _ _ n inside here
            -- No other copy of this page is written after it.
            have others : ∀ other ∈ pages, other.cached = true → other.modified = true →
                other.pageNumber ≠ n / 4096 := by
              intro other member held _ same
              have positive : 0 < pages.countP (CachedPage.holds p) :=
                List.countP_pos_iff.mpr ⟨other, member, CachedPage.holds_iff.mpr ⟨held, same.trans here⟩⟩
              simp only [holds, if_true] at only
              omega
            dsimp only
            rw [purgePages_outside serves divided others]
            exact ccpActualWritePage_bytes serves divided page (number ▸ honest) s written n inside (here.trans number.symm)
    | false =>
      rw [holds] at found
      simp only [holds, Bool.false_eq_true, if_false, Nat.add_zero] at only
      split
      · dsimp only
        split
        · have still : ({ first with modified := false } : CachedPage).holds p = false := holds
          simp only [List.find?_cons, still]
          exact ih only found _ _
        · rename_i fails
          simp only [List.find?_cons, holds]
          exact ⟨page, found, .kept fun succeeds => absurd succeeds fails⟩
      · simp only [List.find?_cons, holds]
        exact ih only found _ _

/-! The purge of a file. -/

section Purge

variable {file : File}

theorem find?_map_unmark (p : Nat) (pages : List CachedPage) :
    (pages.map CachedPage.unmark).find? (CachedPage.holds p) =
      (pages.find? (CachedPage.holds p)).map CachedPage.unmark := List.find?_map ..

theorem ccPurgeCacheFile_copyOf (k : Resources) (cb : Callbacks σ) (s : σ) (file : File) (p : Nat) :
    ((ccPurgeCacheFile k cb s file).2.1.cacheMap.copyOf p).map CachedPage.unmark =
      (file.cacheMap.copyOf p).map CachedPage.unmark := by
  unfold CacheMap.copyOf
  rw [← find?_map_unmark, ← find?_map_unmark]
  congr 1
  exact purgePages_unmark _ _ _

theorem ccPurgeCacheFile_used : (ccPurgeCacheFile k cb s file).2.1.cacheMap.used = file.cacheMap.used := by
  have counts : ∀ pages : List CachedPage, (pages.map CachedPage.unmark).countP (·.cached) = pages.countP (·.cached) :=
    fun pages => List.countP_map
  unfold CacheMap.used
  rw [← counts, ← counts file.cacheMap.pageCacheMap]
  congr 1
  exact purgePages_unmark _ _ _

theorem ccPurgeCacheFile_unique (unique : file.cacheMap.Unique) :
    (ccPurgeCacheFile k cb s file).2.1.cacheMap.Unique := by
  intro p
  have counts : ∀ pages : List CachedPage,
      (pages.map CachedPage.unmark).countP (CachedPage.holds p) = pages.countP (CachedPage.holds p) :=
    fun pages => List.countP_map
  have same : (ccPurgeCacheFile k cb s file).2.1.cacheMap.pageCacheMap.countP (CachedPage.holds p) =
      file.cacheMap.pageCacheMap.countP (CachedPage.holds p) := by
    rw [← counts, ← counts file.cacheMap.pageCacheMap]
    congr 1
    exact purgePages_unmark _ _ _
  exact same ▸ unique p

/-- The purge leaves the file that the cache shows as it is. -/
theorem ccPurgeCacheFile_view (serves : Serves cb byte file.cacheMap.clusterSize size)
    (divided : file.cacheMap.Divided) (n : Nat) :
    (ccPurgeCacheFile k cb s file).2.1.cacheMap.view (byte (ccPurgeCacheFile k cb s file).2.2) n =
      file.cacheMap.view (byte s) n := by
  have copies := ccPurgeCacheFile_copyOf k cb s file (n / 4096)
  cases before : file.cacheMap.copyOf (n / 4096) with
  | none =>
    rw [before, Option.map_none, Option.map_eq_none_iff] at copies
    rw [CacheMap.view_none copies, CacheMap.view_none before]
    apply purgePages_outside serves divided
    intro page member cached _ number
    have missing := List.find?_eq_none.mp before page member
    exact missing (CachedPage.holds_iff.mpr ⟨cached, number⟩)
  | some page =>
    rw [before, Option.map_some, Option.map_eq_some_iff] at copies
    obtain ⟨page', after, same⟩ := copies
    rw [CacheMap.view_some after, CacheMap.view_some before]
    exact congrFun (congrArg (fun page => page.buffer) same : page'.unmark.buffer = page.unmark.buffer) _

end Purge

end Store

end Gr8os.Cc
