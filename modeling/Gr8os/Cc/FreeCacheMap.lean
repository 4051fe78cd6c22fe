import Gr8os.Cc.Durability
import Gr8os.Cc.ErrorReports

/-! The end of a cached file: its dirty pages are written, its pages and its map are given back. -/
namespace Gr8os.Cc

open Bytes Slots Runs

/-- The loop stops at the end of the table, or when as many pages are freed as the map counts. -/
def freePages (cachedPages : Nat) : Nat → Nat → List CachedPage → List CacheEvent
  | _, _, [] => []
  | i, j, page :: pages =>
    if j < cachedPages then
      if page.cached then .freePage i :: freePages cachedPages (i + 1) (j + 1) pages
      else freePages cachedPages (i + 1) j pages
    else []

/-- What a close returns and does, and what it leaves of the file: its map if there still is one. -/
structure Closed (σ : Type) where
  status : BitVec 32
  events : List CacheEvent
  readThrough : Bool
  writeThrough : Bool
  cacheMap : Option CacheMap
  store : σ

/-- The count of pages is a number of 32 bits. -/
def ccFreeCacheMap {σ : Type} (k : Resources) (cb : Callbacks σ) (s : σ) (file : File) : Closed σ :=
  let (status, purged, s') := ccPurgeCacheFile k cb s file
  let writes := ccPurgeCacheFileEvents k cb file
  let frees := freePages (file.cacheMap.cachedPages % 2 ^ 32) 0 0 purged.cacheMap.pageCacheMap
  if file.isCached then
    if succeeded status then
      { status := Status.success.code
        events := writes ++ (frees ++ [.freePageCacheMap, .freeCacheMap])
        readThrough := true, writeThrough := true, cacheMap := none, store := s' }
    else
      { status := status, events := writes, readThrough := file.readThrough, writeThrough := file.writeThrough
        cacheMap := some purged.cacheMap, store := s' }
  else
    { status := Status.success.code, events := [.freeCacheMap]
      readThrough := true, writeThrough := true, cacheMap := none, store := s }

def CacheEvent.frees : CacheEvent → Bool
  | .freePage _ => true
  | .freePageCacheMap => true
  | .freeCacheMap => true
  | _ => false

/-- The page of each cached slot, the table and the map are freed once, and nothing else is; and before anything is freed
every dirty page is written. -/
structure FreesAll (file : File) (events : List CacheEvent) : Prop where
  pages : ∀ slot, events.count (.freePage slot) =
    if (file.cacheMap.pageCacheMap[slot]?.any fun page => page.cached) = true then 1 else 0
  pageCacheMap : events.count .freePageCacheMap = if file.isCached = true then 1 else 0
  cacheMap : events.count .freeCacheMap = 1
  written : ∀ (before : List CacheEvent) (e : CacheEvent) (after : List CacheEvent), events = before ++ e :: after →
    e.frees = true → ∀ (slot : Nat) (page : CachedPage), file.cacheMap.pageCacheMap[slot]? = some page →
      page.dirty = true → SlotWritten file.cacheMap before slot page

section Frees

variable {limit i j : Nat} {pages : List CachedPage}

theorem freePages_frees (e : CacheEvent) (member : e ∈ freePages limit i j pages) : ∃ slot ≥ i, e = .freePage slot := by
  induction pages generalizing i j with
  | nil => exact absurd member List.not_mem_nil
  | cons page pages ih =>
    rw [freePages] at member
    split at member
    · split at member
      · rcases List.mem_cons.mp member with rfl | later
        · exact ⟨i, Nat.le_refl i, rfl⟩
        · obtain ⟨slot, above, freed⟩ := ih later
          exact ⟨slot, Nat.le_of_succ_le above, freed⟩
      · obtain ⟨slot, above, freed⟩ := ih member
        exact ⟨slot, Nat.le_of_succ_le above, freed⟩
    · exact absurd member List.not_mem_nil

theorem freePages_before {slot : Nat} (before : slot < i) : (freePages limit i j pages).count (.freePage slot) = 0 := by
  apply List.count_eq_zero_of_not_mem
  intro member
  obtain ⟨slot', above, freed⟩ := freePages_frees _ member
  cases freed
  exact absurd before (Nat.not_lt.mpr above)

/-- Where the map counts no fewer pages than there are, the loop frees all of them. -/
theorem freePages_count (enough : j + pages.countP (·.cached) ≤ limit) (n : Nat) :
    (freePages limit i j pages).count (.freePage (i + n)) =
      if (pages[n]?.any fun page => page.cached) = true then 1 else 0 := by
  induction pages generalizing i j n with
  | nil => rfl
  | cons page pages ih =>
    rw [List.countP_cons] at enough
    rw [freePages]
    split
    · cases n with
      | zero =>
        have first : ((page :: pages)[0]?.any fun page => page.cached) = page.cached := rfl
        rw [first]
        split
        · rw [Nat.add_zero, List.count_cons_self, freePages_before (Nat.lt_succ_self i)]
        · exact freePages_before (Nat.lt_succ_self i)
      | succ n =>
        have place : i + (n + 1) = i + 1 + n := by omega
        have later : ((page :: pages)[n + 1]?.any fun page => page.cached) = (pages[n]?.any fun page => page.cached) := rfl
        rw [later, place]
        split
        · rename_i cached
          rw [if_pos cached] at enough
          have other : CacheEvent.freePage i ≠ .freePage (i + 1 + n) := by
            intro same
            have := CacheEvent.freePage.inj same
            omega
          rw [List.count_cons_of_ne other]
          exact ih (by omega) n
        · rename_i uncached
          rw [if_neg uncached] at enough
          exact ih (by omega) n
    · -- No page is left.
      have none_left : (page :: pages).countP (·.cached) = 0 := by
        rw [List.countP_cons]
        omega
      have uncached : ¬((page :: pages)[n]?.any fun page => page.cached) = true := by
        rw [Option.any_eq_true]
        rintro ⟨page', here, cached⟩
        exact List.countP_eq_zero.mp none_left page' (List.mem_of_getElem? here) cached
      rw [if_neg uncached]
      rfl

/-! A close writes, frees the pages, and then the table and the map. -/

variable {writes : List CacheEvent} {e : CacheEvent}

theorem count_writes (silent : ∀ e ∈ writes, e.frees = false) (freed : e.frees = true) : writes.count e = 0 := by
  apply List.count_eq_zero_of_not_mem
  intro member
  rw [silent e member] at freed
  cases freed

theorem closing_page (silent : ∀ e ∈ writes, e.frees = false) (enough : pages.countP (·.cached) ≤ limit) (slot : Nat) :
    (writes ++ (freePages limit 0 0 pages ++ [CacheEvent.freePageCacheMap, CacheEvent.freeCacheMap])).count (CacheEvent.freePage slot) =
      if (pages[slot]?.any fun page => page.cached) = true then 1 else 0 := by
  have room : 0 + pages.countP (·.cached) ≤ limit := by rwa [Nat.zero_add]
  have each := freePages_count (i := 0) room slot
  rw [Nat.zero_add] at each
  rw [List.count_append, count_writes silent rfl, List.count_append, each, Nat.zero_add]
  exact Nat.add_zero _

theorem closing_table (silent : ∀ e ∈ writes, e.frees = false) (freed : e.frees = true)
    (other : ∀ slot, e ≠ .freePage slot) :
    (writes ++ (freePages limit 0 0 pages ++ [CacheEvent.freePageCacheMap, CacheEvent.freeCacheMap])).count e =
      [CacheEvent.freePageCacheMap, .freeCacheMap].count e := by
  have paged : (freePages limit 0 0 pages).count e = 0 := by
    apply List.count_eq_zero_of_not_mem
    intro member
    obtain ⟨slot, _, same⟩ := freePages_frees e member
    exact other slot same
  rw [List.count_append, count_writes silent freed, List.count_append, paged, Nat.zero_add, Nat.zero_add]

theorem closing_frees : ∃ e after,
    freePages limit 0 0 pages ++ [.freePageCacheMap, .freeCacheMap] = e :: after ∧ e.frees = true := by
  cases freed : freePages limit 0 0 pages with
  | nil => exact ⟨_, _, rfl, rfl⟩
  | cons first others =>
    obtain ⟨slot, _, rfl⟩ := freePages_frees first (freed ▸ List.mem_cons_self)
    exact ⟨_, _, rfl, rfl⟩

end Frees

section Closing

variable {σ : Type} {k : Resources} {cb : Callbacks σ} {s : σ} {file : File}

theorem purgeEvents_frees (k : Resources) (cb : Callbacks σ) (m : CacheMap) (n : Nat) (pages : List CachedPage) :
    ∀ e ∈ purgeEvents k cb m n pages, e.frees = false := by
  induction pages generalizing n with
  | nil => exact fun e member => absurd member List.not_mem_nil
  | cons page pages ih =>
    intro e member
    rw [purgeEvents] at member
    split at member
    · rcases List.mem_append.mp member with here | later
      · unfold pageWriteEvents at here
        split at here
        · exact absurd here List.not_mem_nil
        · obtain ⟨i, _, rfl⟩ := List.mem_map.mp here
          rfl
      · split at later
        · exact ih (n + 1) e later
        · exact absurd later List.not_mem_nil
    · exact ih (n + 1) e member

theorem purge_cached (slot : Nat) :
    ((ccPurgeCacheFile k cb s file).2.1.cacheMap.pageCacheMap[slot]?.any fun page => page.cached) =
      (file.cacheMap.pageCacheMap[slot]?.any fun page => page.cached) := by
  have same : (ccPurgeCacheFile k cb s file).2.1.cacheMap.pageCacheMap.map CachedPage.unmark =
      file.cacheMap.pageCacheMap.map CachedPage.unmark := purgePages_unmark _ _ _
  have flags : ∀ pages : List CachedPage, (pages[slot]?.any fun page => page.cached) =
      ((pages.map CachedPage.unmark)[slot]?.any fun page => page.cached) := by
    intro pages
    rw [List.getElem?_map, Option.any_map]
    rfl
  rw [flags, same, ← flags]

theorem SlotWritten.mono {m : CacheMap} {events events' : List CacheEvent} {slot : Nat} {page : CachedPage}
    (more : ∀ e ∈ events, e ∈ events') (written : SlotWritten m events slot page) : SlotWritten m events' slot page := by
  refine ⟨written.1, fun i below => ?_⟩
  obtain ⟨status, succeeds, member⟩ := written.2 i below
  exact ⟨status, succeeds, more _ member⟩

/-- Before the first of what is freed is all that is not. -/
theorem freed_after {writes frees before after : List CacheEvent} {e : CacheEvent}
    (none : ∀ e ∈ writes, e.frees = false) (split : writes ++ frees = before ++ e :: after) (freed : e.frees = true) :
    ∀ e ∈ writes, e ∈ before := by
  rcases List.append_eq_append_iff.mp split with ⟨rest, rfl, _⟩ | ⟨rest, rfl, tail⟩
  · exact fun e member => List.mem_append_left rest member
  · cases rest with
    | nil => exact fun e member => (List.append_nil before) ▸ member
    | cons first rest =>
      obtain ⟨rfl, _⟩ := List.cons.inj tail
      have kept := none e (List.mem_append_right before List.mem_cons_self)
      rw [freed] at kept
      cases kept

theorem ccFreeCacheMap_succeeds (all : ∀ page ∈ file.cacheMap.pageCacheMap, page.dirty = true →
    succeeded (pageWriteStatus k cb file.cacheMap page) = true) :
    succeeded (ccFreeCacheMap k cb s file).status = true := by
  have begins : succeeded Status.success.code = true := by decide
  have purged : succeeded (ccPurgeCacheFile k cb s file).1 = true := (purgePages_succeeds s begins).mpr all
  unfold ccFreeCacheMap
  dsimp only
  rw [if_pos purged]
  split <;> exact begins

theorem freesAll_uncached (uncached : file.isCached = false)
    (empty : file.cacheMap.pageCacheMap = []) : FreesAll file [.freeCacheMap] := by
  constructor
  · intro slot
    rw [empty]
    rfl
  · rw [uncached]
    rfl
  · rfl
  · intro _ _ _ _ _ slot page here
    rw [empty] at here
    cases here

/-- A close that succeeds frees everything once, after the dirty pages are written if the driver writes them. -/
theorem freesAll_iff (sound : file.cacheMap.used ≤ file.cacheMap.cachedPages)
    (counted : file.cacheMap.cachedPages < 2 ^ 32) (table : file.isCached = false → file.cacheMap.pageCacheMap = [])
    (freed : succeeded (ccFreeCacheMap k cb s file).status = true) :
    FreesAll file (ccFreeCacheMap k cb s file).events ↔
      ∀ page ∈ file.cacheMap.pageCacheMap, page.dirty = true → PageWritten cb file.cacheMap page := by
  have begins : succeeded Status.success.code = true := by decide
  unfold ccFreeCacheMap at freed ⊢
  dsimp only at freed ⊢
  cases cached : file.isCached with
  | false =>
    rw [if_neg Bool.false_ne_true]
    refine iff_of_true (freesAll_uncached cached (table cached)) fun page member => ?_
    rw [table cached] at member
    cases member
  | true =>
    rw [cached, if_pos rfl] at freed
    rw [if_pos rfl]
    by_cases purged : succeeded (ccPurgeCacheFile k cb s file).1 = true
    · rw [if_pos purged]
      have reached := (@purgePages_succeeds σ k cb file.cacheMap _ s _ begins).mp purged
      have silent := purgeEvents_frees k cb file.cacheMap 0 file.cacheMap.pageCacheMap
      have enough : (ccPurgeCacheFile k cb s file).2.1.cacheMap.pageCacheMap.countP (·.cached) ≤
          file.cacheMap.cachedPages % 2 ^ 32 := by
        rw [Nat.mod_eq_of_lt counted]
        exact Nat.le_trans (Nat.le_of_eq ccPurgeCacheFile_used) sound
      constructor
      · intro frees page member dirty
        obtain ⟨slot, here⟩ := List.mem_iff_getElem?.mp member
        obtain ⟨e, after, rest, freed⟩ := closing_frees
        have written := frees.written _ e after (congrArg _ rest) freed slot page here dirty
        rw [← Nat.zero_add slot] at written
        exact (purgeEvents_written 0 here dirty fun q taken => reached q (List.mem_of_mem_take taken)).mp written
      · intro told
        constructor
        · intro slot
          rw [← purge_cached]
          exact closing_page silent enough slot
        · rw [cached]
          exact closing_table silent rfl fun _ => CacheEvent.noConfusion
        · exact closing_table silent rfl fun _ => CacheEvent.noConfusion
        · intro before e after split freed slot page here dirty
          have written := told page (List.mem_of_getElem? here) dirty
          rw [← Nat.zero_add slot]
          exact ((purgeEvents_written 0 here dirty fun q taken => reached q (List.mem_of_mem_take taken)).mpr written).mono
            (freed_after silent split freed)
    · rw [if_neg purged] at freed
      exact absurd freed purged

/-! The map counts no fewer pages than it holds, whatever calls were made. -/

theorem Puts.sound {m m' : CacheMap} {ps : List Nat} (puts : Puts k m ps m') (sound : m.used ≤ m.cachedPages) :
    m'.used ≤ m'.cachedPages := by
  induction puts with
  | done alike =>
    rw [alike.used, alike.cachedPages]
    exact sound
  | put alike put _ ih =>
    rw [← alike.used, ← alike.cachedPages] at sound
    exact ih (put.sound sound)

theorem Puts.no_table {m m' : CacheMap} {ps : List Nat} (puts : Puts k m ps m') (empty : m.maxCachedPages = 0) :
    m'.maxCachedPages = 0 := by
  induction puts with
  | done alike => exact alike.maxCachedPages.trans empty
  | put alike put _ ih =>
    apply ih
    rw [put.maxCachedPages, CacheMap.growth, alike.maxCachedPages, empty]
    split <;> rfl

/-- The count of the pages does not wrap. -/
def CountedStep (checked : Bool) (t : File × σ) (call : CacheCall σ) (t' : File × σ) : Prop :=
  call.perform checked t = some t' ∧ t'.1.cacheMap.cachedPages < 2 ^ 32

structure Closable (file : File) : Prop where
  sound : file.cacheMap.used ≤ file.cacheMap.cachedPages
  counted : file.cacheMap.cachedPages < 2 ^ 32
  table : file.isCached = false → file.cacheMap.maxCachedPages = 0

theorem perform_isCached {checked : Bool} {t t' : File × σ} {call : CacheCall σ}
    (done : call.perform checked t = some t') : t'.1.isCached = t.1.isCached := by
  cases call with
  | read =>
    obtain ⟨res, _, rfl⟩ := Option.map_eq_some_iff.mp done
    rfl
  | write =>
    obtain ⟨res, _, rfl⟩ := Option.map_eq_some_iff.mp done
    rfl
  | purge k cb =>
    cases Option.some.inj done
    rfl

theorem countedStep_closable {checked : Bool} {t t' : File × σ} {call : CacheCall σ} (closable : Closable t.1)
    (step : CountedStep checked t call t') : Closable t'.1 := by
  have puts := perform_puts step.1
  refine ⟨puts.sound closable.sound, step.2, fun uncached => puts.no_table (closable.table ?_)⟩
  rwa [perform_isCached step.1] at uncached

theorem ccInitializeFileCaching_no_table {heap : Nat → Bool} {file file₀ : File} {clusterSize : Nat}
    (begun : ccInitializeFileCaching heap file clusterSize = some (Status.success.code, file₀))
    (uncached : file.isCached = false) : file₀.cacheMap.maxCachedPages = 0 := by
  obtain ⟨notZero, divides, _⟩ := ccInitializeFileCaching_map begun
  have insufficient : Status.insufficientResources.code ≠ Status.success.code := by decide
  unfold ccInitializeFileCaching at begun
  dsimp only at begun
  rw [if_neg notZero, if_neg fun both => both.2 (divides both.1), uncached, if_neg Bool.false_ne_true] at begun
  split at begun
  · exact absurd (congrArg Prod.fst (Option.some.inj begun)) insufficient
  · cases Option.some.inj begun
    rfl

theorem ccInitializeFileCaching_closable {heap : Nat → Bool} {file file₀ : File} {clusterSize : Nat}
    (begun : ccInitializeFileCaching heap file clusterSize = some (Status.success.code, file₀)) : Closable file₀ := by
  have ok := ccInitializeFileCaching_ok begun
  have no_table := ccInitializeFileCaching_no_table begun
  obtain ⟨_, _, n, _, rfl⟩ := ccInitializeFileCaching_map begun
  exact ⟨Nat.le_of_eq ok.counted.symm, Nat.two_pow_pos 32, no_table⟩

/-- After any calls on a file, a close that succeeds frees its pages and its map once and after they are written exactly
if every cluster of every dirty page is written. -/
theorem freeCacheMap_iff {checked : Bool} {heap : Nat → Bool} {file₀ : File} {clusterSize : Nat} {store : σ}
    {calls : List (CacheCall σ)} {t : File × σ}
    (begun : ccInitializeFileCaching heap file clusterSize = some (Status.success.code, file₀))
    (run : Run (CountedStep checked) (file₀, store) calls t)
    (freed : succeeded (ccFreeCacheMap k cb t.2 t.1).status = true) :
    FreesAll t.1 (ccFreeCacheMap k cb t.2 t.1).events ↔
      ∀ page ∈ t.1.cacheMap.pageCacheMap, page.dirty = true → PageWritten cb t.1.cacheMap page := by
  have closable : Closable t.1 := by
    refine run.invariant (I := fun t => Closable t.1) ?_ (ccInitializeFileCaching_closable begun)
    exact fun closable step => countedStep_closable closable step
  exact freesAll_iff closable.sound closable.counted
    (fun uncached => List.length_eq_zero_iff.mp (closable.table uncached)) freed

end Closing

/-! A byte is read and then written, so that the first slot holds a dirty page. -/

def marked : File × Buffer := (holdingMarked.file, fun _ => 0)

def readThenWrite : List (CacheCall Buffer) :=
  [.read enough memoryCallbacks 0 (fun _ => 0) 1 0, .write enough memoryCallbacks 0 (fun _ => 1) 1 0]

theorem readThenWrite_runs : Run (CountedStep true) (opened false false, fun _ => 0) readThenWrite marked := by
  obtain ⟨res, reads, first⟩ := Option.map_eq_some_iff.mp readOne_first
  obtain ⟨res', writes, second⟩ := Option.map_eq_some_iff.mp writeOne_second
  have read_file : (⟨false, false, res.2.cacheMap⟩ : File) = holdingZero.file := congrArg Session.file first
  have write_file : (⟨false, false, res'.2.cacheMap⟩ : File) = holdingMarked.file := congrArg Session.file second
  refine .next (t := (holdingZero.file, fun _ => 0)) ⟨?_, by decide⟩ (.next (t := marked) ⟨?_, by decide⟩ (.done _))
  · rw [← read_file]
    exact Option.map_eq_some_iff.mpr ⟨res, reads, rfl⟩
  · unfold marked
    rw [← write_file]
    exact Option.map_eq_some_iff.mpr ⟨res', writes, rfl⟩

theorem marked_page : ∃ page : CachedPage, marked.1.cacheMap.pageCacheMap[0]? = some page ∧ page.dirty = true ∧
    page.pageNumber = 0 := ⟨_, rfl, rfl, rfl⟩

theorem marked_freed : FreesAll marked.1 (ccFreeCacheMap enough memoryCallbacks marked.2 marked.1).events := by
  have begun : ccInitializeFileCaching (fun _ => true) (opened false false) 512 =
    some (Status.success.code, opened false false) := rfl
  have succeeds : succeeded Status.success.code = true := by decide
  have freed : succeeded (ccFreeCacheMap enough memoryCallbacks marked.2 marked.1).status = true :=
    ccFreeCacheMap_succeeds fun page _ _ => succeeds
  refine (freeCacheMap_iff begun readThenWrite_runs freed).mpr ?_
  exact fun page _ _ => ⟨by decide, _, rfl, fun i _ => succeeds⟩

/-- The first cluster of the dirty page cannot be written, the last one can, and the page is freed. -/
theorem unwritten_freed : ∃ t, Run (CountedStep true) (opened false false, fun _ => 0) readThenWrite t ∧
    succeeded (ccFreeCacheMap enough (answering firstFails) t.2 t.1).status = true ∧
    ¬FreesAll t.1 (ccFreeCacheMap enough (answering firstFails) t.2 t.1).events := by
  have last_written : ∀ p, succeeded (firstFails (p * 8 + 7)) = true := by
    intro p
    unfold firstFails
    rw [if_neg (Nat.succ_ne_zero _)]
    decide
  have freed : succeeded (ccFreeCacheMap enough (answering firstFails) marked.2 marked.1).status = true :=
    ccFreeCacheMap_succeeds fun page _ _ => last_written page.pageNumber
  refine ⟨marked, readThenWrite_runs, freed, fun frees => ?_⟩
  obtain ⟨page, here, dirty, number⟩ := marked_page
  have cached : marked.1.isCached = false → marked.1.cacheMap.pageCacheMap = [] := fun uncached => nomatch uncached
  have told := (freesAll_iff (by decide) (by decide) cached freed).mp frees page (List.mem_of_getElem? here) dirty
  obtain ⟨_, write, writes, all⟩ := told
  cases Option.some.inj writes
  have first := all 0 (by decide)
  rw [number] at first
  exact absurd first (by decide)

end Gr8os.Cc
