import Gr8os.Cc.Cache

/-! What a cached file holds: at each byte the cached copy of its page, or else the backing store's byte. -/
namespace Gr8os.Cc

open Bytes Slots

namespace CacheMap

/-- The copy that a search for a page finds. -/
def copyOf (m : CacheMap) (p : Nat) : Option CachedPage := m.pageCacheMap.find? (CachedPage.holds p)

def view (m : CacheMap) (disk : Nat → BitVec 8) (i : Nat) : BitVec 8 :=
  match m.copyOf (i / 4096) with
  | none => disk i
  | some page => page.buffer (i % 4096)

/-- The page has a copy that the purge would write. -/
def Marked (m : CacheMap) (p : Nat) : Prop := ∃ page, m.copyOf p = some page ∧ page.modified = true

/-- No page has two copies. -/
def Unique (m : CacheMap) : Prop := ∀ p, m.pageCacheMap.countP (CachedPage.holds p) ≤ 1

def used (m : CacheMap) : Nat := m.pageCacheMap.countP (·.cached)

theorem view_none {m : CacheMap} {disk : Nat → BitVec 8} {i : Nat} (missing : m.copyOf (i / 4096) = none) :
    m.view disk i = disk i := by simp only [view, missing]

theorem view_some {m : CacheMap} {disk : Nat → BitVec 8} {i : Nat} {page : CachedPage}
    (found : m.copyOf (i / 4096) = some page) : m.view disk i = page.buffer (i % 4096) := by
  simp only [view, found]

/-- A map with the slot at an index replaced. -/
def put (m : CacheMap) (i : Nat) (page : CachedPage) : CacheMap :=
  { m with pageCacheMap := m.pageCacheMap.set i page }

end CacheMap

theorem CachedPage.holds_iff {p : Nat} {page : CachedPage} :
    page.holds p = true ↔ page.cached = true ∧ page.pageNumber = p := by
  simp [CachedPage.holds]

theorem CachedPage.holds_other {p q : Nat} {page : CachedPage} (different : q ≠ p) (holds : page.holds p = true) :
    page.holds q = false := by
  rw [Bool.eq_false_iff]
  intro other
  exact different ((holds_iff.mp other).2.symm.trans (holds_iff.mp holds).2)

/-- What reads and writes of the cache leave alone: the geometry, the copies of the pages outside the ones
they deal with, that a page is cached, that a page is marked, and that no page has two copies. -/
structure Grown (touched : Nat → Prop) (m m' : CacheMap) : Prop where
  clusterSize : m'.clusterSize = m.clusterSize
  clustersPerPage : m'.clustersPerPage = m.clustersPerPage
  other : ∀ p, ¬ touched p → m'.copyOf p = m.copyOf p
  missing : ∀ p, m'.copyOf p = none → m.copyOf p = none
  marked : ∀ p, m.Marked p → m'.Marked p
  sound : m.used ≤ m.cachedPages → m'.used ≤ m'.cachedPages
  unique : m.Unique → m'.Unique

namespace Grown

variable {touched more : Nat → Prop} {m m' m'' : CacheMap}

theorem refl (touched : Nat → Prop) (m : CacheMap) : Grown touched m m :=
  ⟨rfl, rfl, fun _ _ => rfl, fun _ none => none, fun _ marked => marked, fun sound => sound, fun unique => unique⟩

theorem trans (first : Grown touched m m') (second : Grown touched m' m'') : Grown touched m m'' where
  clusterSize := second.clusterSize.trans first.clusterSize
  clustersPerPage := second.clustersPerPage.trans first.clustersPerPage
  other p outside := (second.other p outside).trans (first.other p outside)
  missing p none := first.missing p (second.missing p none)
  marked p marked := second.marked p (first.marked p marked)
  sound sound := second.sound (first.sound sound)
  unique unique := second.unique (first.unique unique)

theorem mono (grown : Grown touched m m') (wider : ∀ p, touched p → more p) : Grown more m m' where
  __ := grown
  other p outside := grown.other p fun inside => outside (wider p inside)

end Grown

theorem put_found_used {m : CacheMap} {p i : Nat} {later : CachedPage}
    (found : m.pageCacheMap.findIdx? (CachedPage.holds p) = some i) (holds : later.holds p = true) :
    (m.put i later).used = m.used := by
  obtain ⟨slot, at_i, before⟩ := get_of_findIdx? found
  have counts := countP_set (p := (·.cached)) (y := later) at_i
  simp only [(CachedPage.holds_iff.mp before).1, (CachedPage.holds_iff.mp holds).1, if_true] at counts
  exact Nat.add_right_cancel counts

/-- The slot found for a page, replaced by a copy of the same page that is no less marked. -/
theorem put_found {m : CacheMap} {p i : Nat} {page : CachedPage} {later : CachedPage}
    (found : m.pageCacheMap.findIdx? (CachedPage.holds p) = some i) (here : m.copyOf p = some page)
    (holds : later.holds p = true) (marked : page.modified = true → later.modified = true) :
    Grown (· = p) m (m.put i later) ∧ (m.put i later).copyOf p = some later := by
  obtain ⟨slot, at_i, before⟩ := get_of_findIdx? found
  have same : some slot = some page := by
    rw [← at_i, ← find?_of_findIdx? found]
    exact here
  cases Option.some.inj same
  have copied : (m.put i later).copyOf p = some later := find?_set_found found holds
  have others : ∀ q, q ≠ p → (m.put i later).copyOf q = m.copyOf q := by
    intro q different
    exact find?_set_other at_i (CachedPage.holds_other different before) (CachedPage.holds_other different holds)
  refine ⟨⟨rfl, rfl, others, ?_, ?_, ?_, ?_⟩, copied⟩
  · intro q none
    by_cases same : q = p
    · rw [same, copied] at none
      cases none
    · rwa [others q same] at none
  · rintro q ⟨copy, held, modified⟩
    by_cases same : q = p
    · rw [same, here] at held
      cases Option.some.inj held
      exact ⟨later, same ▸ copied, marked modified⟩
    · exact ⟨copy, (others q same).trans held, modified⟩
  · intro sound
    exact Nat.le_trans (Nat.le_of_eq (put_found_used found holds)) sound
  · intro unique q
    have counts := countP_set (p := CachedPage.holds q) (y := later) at_i
    have alike : later.holds q = page.holds q := by
      by_cases same : q = p
      · rw [same, holds, before]
      · rw [CachedPage.holds_other same holds, CachedPage.holds_other same before]
    rw [alike] at counts
    exact Nat.le_trans (Nat.le_of_eq (Nat.add_right_cancel counts)) (unique q)

theorem view_of_copy {m m' : CacheMap} {p : Nat} {page : CachedPage} {disk : Nat → BitVec 8}
    (others : ∀ q, q ≠ p → m'.copyOf q = m.copyOf q) (copied : m'.copyOf p = some page) (i : Nat) :
    m'.view disk i = if i / 4096 = p then page.buffer (i % 4096) else m.view disk i := by
  by_cases here : i / 4096 = p
  · rw [if_pos here, CacheMap.view_some (here ▸ copied)]
  · rw [if_neg here]
    simp only [CacheMap.view, others _ here]

/-! Putting a page into the cache. -/

/-- How many slots a routine that puts one more page into the cache adds to the table. -/
def CacheMap.growth (k : Resources) (m : CacheMap) : Nat :=
  if m.cachedPages + 1 = m.maxCachedPages ∧ k.heap (m.maxCachedPages * 2) = true then m.maxCachedPages else 0

theorem ccpGrowCacheMap_eq (k : Resources) (m : CacheMap) : ccpGrowCacheMap k m =
    { m with
      cachedPages := m.cachedPages + 1
      pageCacheMap := m.pageCacheMap ++ List.replicate (m.growth k) {} } := by
  unfold ccpGrowCacheMap CacheMap.growth ccpRebuildCacheMap
  simp only [CacheMap.maxCachedPages]
  by_cases full : m.cachedPages + 1 = m.pageCacheMap.length
  · by_cases room : k.heap (m.pageCacheMap.length * 2) = true
    · simp [full, room]
    · simp [full, room]
  · simp [full]

theorem ccpGrowCacheMap_copyOf (k : Resources) (m : CacheMap) (p : Nat) :
    (ccpGrowCacheMap k m).copyOf p = m.copyOf p := by
  rw [ccpGrowCacheMap_eq]
  apply find?_append_other
  intro page member
  rw [List.eq_of_mem_replicate member]
  rfl

theorem ccpGrowCacheMap_used (k : Resources) (m : CacheMap) : (ccpGrowCacheMap k m).used = m.used := by
  simp [ccpGrowCacheMap_eq, CacheMap.used, List.countP_append, List.countP_replicate]

theorem ccpGrowCacheMap_grown (k : Resources) (m : CacheMap) (touched : Nat → Prop) :
    Grown touched m (ccpGrowCacheMap k m) where
  clusterSize := by rw [ccpGrowCacheMap_eq]
  clustersPerPage := by rw [ccpGrowCacheMap_eq]
  other p _ := ccpGrowCacheMap_copyOf k m p
  missing p none := (ccpGrowCacheMap_copyOf k m p).symm.trans none
  marked p marked := by
    obtain ⟨page, copied, modified⟩ := marked
    exact ⟨page, (ccpGrowCacheMap_copyOf k m p).trans copied, modified⟩
  sound sound := by
    rw [ccpGrowCacheMap_used, ccpGrowCacheMap_eq]
    exact Nat.le_succ_of_le sound
  unique unique p := by
    have blank : ({} : CachedPage).holds p = false := rfl
    simp only [ccpGrowCacheMap_eq, List.countP_append, List.countP_replicate, blank]
    exact unique p

/-- A table has a free slot as long as not every slot is used. -/
theorem used_full {m : CacheMap} (none_free : m.pageCacheMap.findIdx? (fun page => !page.cached) = none) :
    m.used = m.maxCachedPages := by
  rw [List.findIdx?_eq_none_iff] at none_free
  unfold CacheMap.used CacheMap.maxCachedPages
  rw [List.countP_eq_length]
  intro page member
  simpa using none_free page member

/-- Putting a copy of a page that has none into a free slot. -/
theorem put_free {m : CacheMap} {p i : Nat} {page : CachedPage} (missing : m.copyOf p = none)
    (free : m.pageCacheMap.findIdx? (fun page => !page.cached) = some i) (holds : page.holds p = true) :
    (∀ q, q ≠ p → (m.put i page).copyOf q = m.copyOf q) ∧ (m.put i page).copyOf p = some page ∧
      (m.put i page).used = m.used + 1 ∧ (m.Unique → (m.put i page).Unique) := by
  obtain ⟨slot, at_i, uncached⟩ := get_of_findIdx? free
  have unused : slot.cached = false := by simpa using uncached
  have inside : i < m.pageCacheMap.length := (List.getElem?_eq_some_iff.mp at_i).1
  have empty : ∀ q, slot.holds q = false := fun q => by simp [CachedPage.holds, unused]
  refine ⟨?_, find?_set_new inside missing holds, ?_, ?_⟩
  · intro q different
    exact find?_set_other at_i (empty q) (CachedPage.holds_other different holds)
  · have counts := countP_set (p := (·.cached)) (y := page) at_i
    simp only [unused, (CachedPage.holds_iff.mp holds).1, Bool.false_eq_true, if_false, if_true] at counts
    exact counts
  · intro unique q
    have counts := countP_set (p := CachedPage.holds q) (y := page) at_i
    simp only [empty, Bool.false_eq_true, if_false, Nat.add_zero] at counts
    show (m.pageCacheMap.set i page).countP (CachedPage.holds q) ≤ 1
    by_cases same : q = p
    · have none_held : m.pageCacheMap.countP (CachedPage.holds p) = 0 :=
        List.countP_eq_zero.mpr (List.find?_eq_none.mp missing)
      rw [counts, same, none_held, holds]
      decide
    · rw [counts, CachedPage.holds_other same holds]
      exact unique q

theorem put_blank {m : CacheMap} {i : Nat} {page : CachedPage}
    (free : m.pageCacheMap.findIdx? (fun page => !page.cached) = some i) (blank : page.cached = false) :
    (∀ q, (m.put i page).copyOf q = m.copyOf q) ∧ (m.put i page).used = m.used ∧
      (m.Unique → (m.put i page).Unique) := by
  obtain ⟨slot, at_i, uncached⟩ := get_of_findIdx? free
  have unused : slot.cached = false := by simpa using uncached
  have before : ∀ q, slot.holds q = false := fun q => by simp [CachedPage.holds, unused]
  have after : ∀ q, page.holds q = false := fun q => by simp [CachedPage.holds, blank]
  refine ⟨fun q => find?_set_other at_i (before q) (after q), ?_, ?_⟩
  · have counts := countP_set (p := (·.cached)) (y := page) at_i
    simp only [unused, blank, Bool.false_eq_true, if_false, Nat.add_zero] at counts
    exact counts
  · intro unique q
    have counts := countP_set (p := CachedPage.holds q) (y := page) at_i
    simp only [before, after, Bool.false_eq_true, if_false, Nat.add_zero] at counts
    exact Nat.le_trans (Nat.le_of_eq counts) (unique q)

theorem marked_congr {m m' : CacheMap} {p : Nat} (same : m'.copyOf p = m.copyOf p) (marked : m.Marked p) :
    m'.Marked p := by
  unfold CacheMap.Marked at *
  rwa [same]

def freshCopy (p : Nat) (buffer : Buffer) : CachedPage :=
  { cached := true, modified := false, pageNumber := p, buffer := buffer }

/-- A page without a copy gets one, unmarked, or nothing is seen of the attempt. -/
theorem ccpCacheFilePage_spec (k : Resources) {m : CacheMap} {p : Nat} (b : Buffer) (missing : m.copyOf p = none) :
    Grown (· = p) m (ccpCacheFilePage k m p b).2 ∧
      ((ccpCacheFilePage k m p b).2.copyOf p = none ∨
        (ccpCacheFilePage k m p b).2.copyOf p = some (freshCopy p b)) := by
  have grown := ccpGrowCacheMap_grown k m (· = p)
  have absent := (ccpGrowCacheMap_copyOf k m p).trans missing
  have counted : (ccpGrowCacheMap k m).cachedPages = m.cachedPages + 1 := by rw [ccpGrowCacheMap_eq]
  have used := ccpGrowCacheMap_used k m
  unfold ccpCacheFilePage
  generalize ccpGrowCacheMap k m = m₁ at grown absent counted used ⊢
  dsimp only
  cases free : m₁.pageCacheMap.findIdx? (fun page => !page.cached) with
  | none => exact ⟨grown, Or.inl absent⟩
  | some i =>
    cases allocated : k.cachedPage p with
    | true =>
      have holds : (freshCopy p b).holds p = true := by simp [CachedPage.holds, freshCopy]
      obtain ⟨others, copied, count, one⟩ := put_free absent free holds
      refine ⟨⟨grown.clusterSize, grown.clustersPerPage, ?_, ?_, ?_, ?_, fun unique => one (grown.unique unique)⟩,
        Or.inr copied⟩
      · intro q different
        exact (others q different).trans (grown.other q different)
      · intro q none
        by_cases same : q = p
        · rw [same, missing]
        · exact grown.missing q ((others q same).symm.trans none)
      · rintro q ⟨page, held, modified⟩
        by_cases same : q = p
        · rw [same, missing] at held
          cases held
        · exact marked_congr (others q same) (grown.marked q ⟨page, held, modified⟩)
      · intro sound
        have : (m₁.put i (freshCopy p b)).cachedPages = m₁.cachedPages := rfl
        have : (m₁.put i (freshCopy p b)).used ≤ (m₁.put i (freshCopy p b)).cachedPages := by omega
        exact this
    | false =>
      have blank : ({ cached := false, modified := false, pageNumber := p } : CachedPage).cached = false := rfl
      obtain ⟨same, count, one⟩ := put_blank free blank
      have after : Grown (· = p) m₁ (m₁.put i { cached := false, modified := false, pageNumber := p }) := by
        refine ⟨rfl, rfl, fun q _ => same q, fun q none => (same q).symm.trans none, ?_, ?_, one⟩
        · exact fun q marked => marked_congr (same q) marked
        · exact fun sound => Nat.le_trans (Nat.le_of_eq count) sound
      exact ⟨grown.trans after, Or.inl ((same p).trans absent)⟩

/-- There is a slot for so many more pages: free ones, or ones that the heap adds when the table is full. -/
def Room (k : Resources) (m : CacheMap) (n : Nat) : Prop :=
  m.used + n ≤ m.maxCachedPages ∨ (m.cachedPages < m.maxCachedPages ∧ ∀ size, k.heap size = true)

/-- With room and a page to keep it in, the page gets its copy. -/
theorem ccpCacheFilePage_kept {k : Resources} {m : CacheMap} {p n : Nat} (b : Buffer) (missing : m.copyOf p = none)
    (sound : m.used ≤ m.cachedPages) (room : Room k m (n + 1)) (allocated : k.cachedPage p = true) :
    (ccpCacheFilePage k m p b).2.copyOf p = some (freshCopy p b) ∧ Room k (ccpCacheFilePage k m p b).2 n := by
  have absent := (ccpGrowCacheMap_copyOf k m p).trans missing
  have used := ccpGrowCacheMap_used k m
  have counted : (ccpGrowCacheMap k m).cachedPages = m.cachedPages + 1 := by rw [ccpGrowCacheMap_eq]
  have longer : (ccpGrowCacheMap k m).maxCachedPages = m.maxCachedPages + m.growth k := by
    simp [ccpGrowCacheMap_eq, CacheMap.maxCachedPages]
  have after : m.used + 1 + n ≤ m.maxCachedPages + m.growth k ∨
      (m.cachedPages + 1 < m.maxCachedPages + m.growth k ∧ ∀ size, k.heap size = true) := by
    cases room with
    | inl free => exact Or.inl (by omega)
    | inr grows =>
      refine Or.inr ⟨?_, grows.2⟩
      by_cases full : m.cachedPages + 1 = m.maxCachedPages
      · have : m.growth k = m.maxCachedPages := if_pos ⟨full, grows.2 _⟩
        omega
      · omega
  have slot : (ccpGrowCacheMap k m).used < (ccpGrowCacheMap k m).maxCachedPages := by
    cases after <;> omega
  unfold ccpCacheFilePage
  generalize ccpGrowCacheMap k m = m₁ at absent used counted longer slot ⊢
  dsimp only
  cases free : m₁.pageCacheMap.findIdx? (fun page => !page.cached) with
  | none => exact absurd (used_full free) (by omega)
  | some i =>
    rw [allocated]
    have holds : (freshCopy p b).holds p = true := by simp [CachedPage.holds, freshCopy]
    obtain ⟨_, copied, count, _⟩ := put_free absent free holds
    refine ⟨copied, ?_⟩
    have length : (m₁.put i (freshCopy p b)).maxCachedPages = m₁.maxCachedPages := by
      simp [CacheMap.put, CacheMap.maxCachedPages]
    have pages : (m₁.put i (freshCopy p b)).cachedPages = m₁.cachedPages := rfl
    show Room k (m₁.put i (freshCopy p b)) n
    unfold Room
    rw [count, length, pages, used, longer, counted]
    exact after

/-! Reading a page from the backing store. -/

section Store

variable {σ : Type}

/-- What a driver's routines promise: a successful read gives the bytes of the file, a successful write stores
them, a write touches nothing outside its cluster, and the end of the file is told of no cluster inside it. -/
structure Serves (cb : Callbacks σ) (byte : σ → Nat → BitVec 8) (clusterSize size : Nat) : Prop where
  read : ∀ {r}, cb.actualRead = some r → ∀ c, succeeded (r.status c) → ∀ s b j, j < clusterSize →
    c * clusterSize + j < size → r.bytes s c b j = byte s (c * clusterSize + j)
  ended : ∀ {r}, cb.actualRead = some r → ∀ c, r.status c = Status.endOfFile.code → size ≤ c * clusterSize
  write : ∀ {w}, cb.actualWrite = some w → ∀ c, succeeded (w.status c) → ∀ s b j, j < clusterSize →
    c * clusterSize + j < size → byte (w.store s c b) (c * clusterSize + j) = b j
  other : ∀ {w}, cb.actualWrite = some w → ∀ c s b i, i < c * clusterSize ∨ c * clusterSize + clusterSize ≤ i →
    byte (w.store s c b) i = byte s i

/-- The status of a page after its clusters are read, from the statuses of the clusters. -/
def clustersStatus (status : Nat → BitVec 32) : List Nat → BitVec 32 → BitVec 32
  | [], last => last
  | i :: is, _ =>
    if status i = Status.endOfFile.code then Status.success.code
    else if status i = Status.noMediaInDevice.code then status i
    else clustersStatus status is (status i)

def pageStatus (k : Resources) (cb : Callbacks σ) (clustersPerPage p : Nat) : BitVec 32 :=
  match cb.actualRead with
  | none => Status.notSupported.code
  | some r => clustersStatus (fun i => r.status (p * clustersPerPage + i)) (List.range clustersPerPage) k.unset

/-- No cluster of the page that begins inside the file fails to be read. -/
def AllRead (cb : Callbacks σ) (m : CacheMap) (size p : Nat) : Prop :=
  ∀ r, cb.actualRead = some r → ∀ i, i < m.clustersPerPage →
    (p * m.clustersPerPage + i) * m.clusterSize < size → succeeded (r.status (p * m.clustersPerPage + i)) = true

theorem readClusters_status (read : CacheRead σ) (m : CacheMap) (s : σ) (p : Nat) (is : List Nat)
    (status : BitVec 32) (b : Buffer) : (readClusters read m s p is status b).1 =
      clustersStatus (fun i => read.status (p * m.clustersPerPage + i)) is status := by
  induction is generalizing status b with
  | nil => rfl
  | cons i is ih =>
    simp only [readClusters, clustersStatus]
    split
    · rfl
    · split
      · rfl
      · exact ih ..

theorem ccpActualReadPage_status (k : Resources) (cb : Callbacks σ) (s : σ) (m : CacheMap) (p : Nat) (b : Buffer) :
    (ccpActualReadPage k cb s m p b).1 = pageStatus k cb m.clustersPerPage p := by
  unfold ccpActualReadPage pageStatus
  cases cb.actualRead with
  | none => rfl
  | some read => exact readClusters_status ..

/-- The clusters divide the page. -/
def CacheMap.Divided (m : CacheMap) : Prop := m.clustersPerPage * m.clusterSize = 4096

theorem CacheMap.Divided.start {m : CacheMap} (divided : m.Divided) (p i : Nat) :
    (p * m.clustersPerPage + i) * m.clusterSize = p * 4096 + i * m.clusterSize := by
  rw [Nat.add_mul, Nat.mul_assoc, divided]

theorem readClusters_bytes {cb : Callbacks σ} {byte : σ → Nat → BitVec 8} {m : CacheMap} {size p : Nat}
    {read : CacheRead σ} (serves : Serves cb byte m.clusterSize size) (reads : cb.actualRead = some read)
    (divided : m.Divided) (all : AllRead cb m size p) (s : σ) (n i : Nat) (whole : i + n = m.clustersPerPage)
    (status : BitVec 32) (b : Buffer)
    (before : ∀ j, j < i * m.clusterSize → p * 4096 + j < size → b j = byte s (p * 4096 + j)) :
    ∀ j, j < 4096 → p * 4096 + j < size →
      (readClusters read m s p (List.range' i n) status b).2 j = byte s (p * 4096 + j) := by
  induction n generalizing i status b with
  | zero =>
    intro j below inside
    have : i * m.clusterSize = 4096 := by
      rw [← divided, ← whole]
      rfl
    exact before j (by omega) inside
  | succ n ih =>
    have start := divided.start p i
    have here : ∀ j, j < (i + 1) * m.clusterSize → p * 4096 + j < size →
        succeeded (read.status (p * m.clustersPerPage + i)) = true →
        memcpy b (i * m.clusterSize) (read.bytes s (p * m.clustersPerPage + i) fun j => b (i * m.clusterSize + j))
          0 m.clusterSize j = byte s (p * 4096 + j) := by
      intro j below inside succeeds
      rw [Nat.add_mul, Nat.one_mul] at below
      by_cases earlier : j < i * m.clusterSize
      · rw [memcpy_outside (Or.inl earlier)]
        exact before j earlier inside
      · rw [memcpy_inside (Nat.le_of_not_gt earlier) below]
        have bytes := serves.read reads _ succeeds s (fun j => b (i * m.clusterSize + j)) (0 + (j - i * m.clusterSize))
          (by omega) (by omega)
        have index : p * 4096 + i * m.clusterSize + (0 + (j - i * m.clusterSize)) = p * 4096 + j := by omega
        rw [bytes, start, index]
    have early : ∀ j, p * 4096 + j < size → size ≤ (p * m.clustersPerPage + i) * m.clusterSize →
        memcpy b (i * m.clusterSize) (read.bytes s (p * m.clustersPerPage + i) fun j => b (i * m.clusterSize + j))
          0 m.clusterSize j = byte s (p * 4096 + j) := by
      intro j inside beyond
      rw [memcpy_outside (Or.inl (by omega))]
      exact before j (by omega) inside
    have known : ∀ j, j < (i + 1) * m.clusterSize → p * 4096 + j < size →
        memcpy b (i * m.clusterSize) (read.bytes s (p * m.clustersPerPage + i) fun j => b (i * m.clusterSize + j))
          0 m.clusterSize j = byte s (p * 4096 + j) := by
      intro j below inside
      by_cases begins : (p * m.clustersPerPage + i) * m.clusterSize < size
      · exact here j below inside (all read reads i (by omega) begins)
      · exact early j inside (Nat.le_of_not_gt begins)
    simp only [List.range'_succ, readClusters]
    split
    · rename_i ended
      intro j _ inside
      exact early j inside (serves.ended reads _ ended)
    · split
      · rename_i removed
        intro j _ inside
        by_cases begins : (p * m.clustersPerPage + i) * m.clusterSize < size
        · have succeeds := all read reads i (by omega) begins
          rw [removed] at succeeds
          exact absurd succeeds (by decide)
        · exact early j inside (Nat.le_of_not_gt begins)
      · exact ih (i + 1) (by omega) _ _ known

/-- A page whose clusters are all read holds the bytes of the file. -/
theorem ccpActualReadPage_bytes {cb : Callbacks σ} {byte : σ → Nat → BitVec 8} {k : Resources} {m : CacheMap}
    {size p : Nat} (serves : Serves cb byte m.clusterSize size) (divided : m.Divided) (all : AllRead cb m size p)
    (s : σ) (b : Buffer) (succeeds : succeeded (pageStatus k cb m.clustersPerPage p) = true) :
    ∀ j, j < 4096 → p * 4096 + j < size → (ccpActualReadPage k cb s m p b).2 j = byte s (p * 4096 + j) := by
  unfold ccpActualReadPage
  unfold pageStatus at succeeds
  cases reads : cb.actualRead with
  | none =>
    have fails : succeeded Status.notSupported.code = false := by decide
    simp [reads, fails] at succeeds
  | some read =>
    dsimp only
    rw [List.range_eq_range']
    apply readClusters_bytes serves reads divided all s _ 0 (Nat.zero_add _)
    intro j below
    rw [Nat.zero_mul] at below
    exact absurd below (Nat.not_lt_zero j)

end Store

end Gr8os.Cc
