import Gr8os.Cc.CacheRuns

/-! The purge after a sequence of writes: which written bytes reach the backing store. -/
namespace Gr8os.Cc

open Bytes Runs

section Journals

variable {σ : Type} {byte : σ → Nat → BitVec 8} {clusterSize size : Nat}

/-- A session, with the pages that hold written bytes and that no write has left marked since. -/
structure Journal (σ : Type) where
  session : Session σ
  unmarked : Nat → Prop

/-- A write marks the page that it ends on if that page has a copy, and no other page. -/
def unmarkedAfter (t : Journal σ) : CacheOp byte clusterSize size → Nat → Prop
  | .write _ _ range _ _ => fun p =>
    let r := Request.start range.offset range.length
    let m := t.session.file.cacheMap
    (t.unmarked p ∨ (r.pageNumber ≤ p ∧ p ≤ r.last ∧ ¬ m.Marked p)) ∧ ¬ (p = r.last ∧ m.copyOf p ≠ none)
  | _ => t.unmarked

/-- A write of the sequence succeeds. -/
def Succeeds (checked : Bool) (t : Session σ) : CacheOp byte clusterSize size → Prop
  | .write k driver range buffer nBytes => ∀ res,
    ccCacheWriteFile checked k driver.callbacks t.store t.file range.offset buffer range.length nBytes = some res →
    succeeded res.1 = true
  | _ => True

structure JournalStep (checked : Bool) (t : Journal σ) (op : CacheOp byte clusterSize size) (t' : Journal σ) : Prop where
  step : cacheStep checked t.session op = some t'.session
  succeeds : Succeeds checked t.session op
  unmarked : t'.unmarked = unmarkedAfter t op

/-- The calls that meet none of the slips of reads and writes, and purges that are told when a cluster fails. -/
def PurgeSafe (checked : Bool) (t : Journal σ) : CacheOp byte clusterSize size → Prop
  | .purge _ driver => ∀ p, t.session.file.cacheMap.Marked p →
    HonestWrite driver.callbacks t.session.file.cacheMap size p
  | op => CacheSafe checked t.session op

/-- A byte that the backing store lacks lies on a marked page, or on one that a write has left unmarked. -/
structure Durable (byte : σ → Nat → BitVec 8) (clusterSize size : Nat) (t : Journal σ) : Prop where
  coherent : Coherent byte clusterSize size t.session
  stored : ∀ i, i < size → t.unmarked (i / 4096) ∨ t.session.file.cacheMap.Marked (i / 4096) ∨
    byte t.session.store i = t.session.written i

theorem read_durable {checked : Bool} {t t' : Journal σ} {k : Resources} {driver : Driver byte clusterSize size}
    {range : Range size} {buffer : Buffer} {nBytes : BitVec 32} (durable : Durable byte clusterSize size t)
    (safe : CacheSafe checked t.session (.read k driver range buffer nBytes))
    (next : JournalStep checked t (.read k driver range buffer nBytes) t') : Durable byte clusterSize size t' := by
  have coherent := cacheStep_coherent durable.coherent safe next.step
  obtain ⟨res, ends, after⟩ := Option.map_eq_some_iff.mp next.step
  have read := ccCacheReadFile_spec (durable.coherent.serves driver) durable.coherent.divided durable.coherent.shows
    range.inside safe ends
  refine ⟨coherent, ?_⟩
  intro i inside
  rw [next.unmarked, ← after]
  cases durable.stored i inside with
  | inl unmarked => exact Or.inl unmarked
  | inr known =>
    cases known with
    | inl marked => exact Or.inr (Or.inl (read.grown.marked _ marked))
    | inr same => exact Or.inr (Or.inr same)

theorem write_durable {checked : Bool} {t t' : Journal σ} {k : Resources} {driver : Driver byte clusterSize size}
    {range : Range size} {buffer : Buffer} {nBytes : BitVec 32} (durable : Durable byte clusterSize size t)
    (safe : CacheSafe checked t.session (.write k driver range buffer nBytes))
    (next : JournalStep checked t (.write k driver range buffer nBytes) t') : Durable byte clusterSize size t' := by
  have coherent := cacheStep_coherent durable.coherent safe next.step
  obtain ⟨res, ends, after⟩ := Option.map_eq_some_iff.mp next.step
  have written := ccCacheWriteFile_spec (durable.coherent.serves driver) durable.coherent.divided
    durable.coherent.sound durable.coherent.shows safe ends
  have succeeds := next.succeeds res ends
  refine ⟨coherent, ?_⟩
  intro i inside
  have position := Request.start_position range.offset range.length
  have length : (Request.start range.offset range.length).size = range.length.toNat := rfl
  have untouched : i < range.offset.toNat ∨ range.offset.toNat + range.length.toNat ≤ i →
      t'.session.written i = t.session.written i := by
    intro outside
    rw [← after]
    simp only [succeeds, if_true]
    exact memcpy_outside outside
  have stored := durable.stored i inside
  rw [next.unmarked]
  unfold unmarkedAfter
  dsimp only
  generalize Request.start range.offset range.length = r at *
  have map_eq : t'.session.file.cacheMap = res.2.cacheMap := by
    rw [← after]
    rfl
  have store_eq : t'.session.store = t.session.store := by
    rw [← after]
    rfl
  rw [map_eq, store_eq]
  by_cases ended : i / 4096 = r.last ∧ t.session.file.cacheMap.copyOf (i / 4096) ≠ none
  · have copied := ended.2
    rw [ended.1] at copied ⊢
    exact Or.inr (Or.inl (written.marked succeeds copied))
  · by_cases marked : t.session.file.cacheMap.Marked (i / 4096)
    · exact Or.inr (Or.inl (written.grown.marked _ marked))
    · cases stored with
      | inl unmarked => exact Or.inl ⟨Or.inl unmarked, ended⟩
      | inr known =>
        have same := known.resolve_left marked
        by_cases touched : r.position ≤ i ∧ i < r.position + r.size
        · have pages := Request.touches touched.1 touched.2
          exact Or.inl ⟨Or.inr ⟨pages.1, pages.2, marked⟩, ended⟩
        · rw [untouched (by omega)]
          exact Or.inr (Or.inr same)

theorem marked_of_slot {m : CacheMap} {page : CachedPage} (unique : m.Unique) (member : page ∈ m.pageCacheMap)
    (cached : page.cached = true) (modified : page.modified = true) : m.Marked page.pageNumber :=
  ⟨page, Slots.find?_of_unique (unique page.pageNumber) member (CachedPage.holds_iff.mpr ⟨cached, rfl⟩), modified⟩

/-- After a purge a byte that the backing store lacks lies on a page that a write has left unmarked,
or the page is still marked and the purge has failed. -/
theorem purge_stored {t : Journal σ} {k : Resources} {driver : Driver byte clusterSize size}
    (durable : Durable byte clusterSize size t)
    (honest : ∀ p, t.session.file.cacheMap.Marked p →
      HonestWrite driver.callbacks t.session.file.cacheMap size p) (i : Nat) (inside : i < size) :
    t.unmarked (i / 4096) ∨
      ((ccPurgeCacheFile k driver.callbacks t.session.store t.session.file).2.1.cacheMap.Marked (i / 4096) ∧
        ¬ succeeded (ccPurgeCacheFile k driver.callbacks t.session.store t.session.file).1 = true) ∨
      byte (ccPurgeCacheFile k driver.callbacks t.session.store t.session.file).2.2 i = t.session.written i := by
  have coherent := durable.coherent
  by_cases marked : t.session.file.cacheMap.Marked (i / 4096)
  · obtain ⟨page, copied, modified⟩ := marked
    have shown := (CacheMap.view_some copied).symm.trans (coherent.shows i inside)
    obtain ⟨page', after, purged⟩ := purgePages_found (k := k) (coherent.serves driver) coherent.divided
      (coherent.unique (i / 4096)) (honest _ ⟨page, copied, modified⟩) copied Status.success.code t.session.store
    cases still : page'.modified with
    | true =>
      refine Or.inr (Or.inl ⟨⟨page', after, still⟩, ?_⟩)
      intro succeeds
      exact absurd (still.symm.trans (purged.clean succeeds)) (by decide)
    | false => exact Or.inr (Or.inr ((purged.stored modified still i inside rfl).trans shown))
  · cases durable.stored i inside with
    | inl unmarked => exact Or.inl unmarked
    | inr known =>
      have same := known.resolve_left marked
      refine Or.inr (Or.inr ((purgePages_outside (coherent.serves driver) coherent.divided ?_ _ _).trans same))
      intro page member cached modified number
      exact marked (number ▸ marked_of_slot coherent.unique member cached modified)

theorem purge_durable {checked : Bool} {t t' : Journal σ} {k : Resources} {driver : Driver byte clusterSize size}
    (durable : Durable byte clusterSize size t) (safe : PurgeSafe checked t (.purge k driver))
    (next : JournalStep checked t (.purge k driver) t') : Durable byte clusterSize size t' := by
  have harmless : CacheSafe checked t.session (.purge k driver) := trivial
  refine ⟨cacheStep_coherent durable.coherent harmless next.step, ?_⟩
  intro i inside
  have after : ({ t.session with
      file := (ccPurgeCacheFile k driver.callbacks t.session.store t.session.file).2.1
      store := (ccPurgeCacheFile k driver.callbacks t.session.store t.session.file).2.2 } : Session σ) = t'.session :=
    Option.some.inj next.step
  rw [next.unmarked, ← after]
  cases purge_stored (k := k) durable safe i inside with
  | inl unmarked => exact Or.inl unmarked
  | inr known =>
    cases known with
    | inl marked => exact Or.inr (Or.inl marked.1)
    | inr same => exact Or.inr (Or.inr same)

theorem journalStep_durable {checked : Bool} {t t' : Journal σ} {op : CacheOp byte clusterSize size}
    (durable : Durable byte clusterSize size t) (safe : PurgeSafe checked t op)
    (next : JournalStep checked t op t') : Durable byte clusterSize size t' := by
  cases op with
  | read => exact read_durable durable safe next
  | write => exact write_durable durable safe next
  | purge => exact purge_durable durable safe next

/-- A purge that succeeds leaves in the backing store the last value written to each byte. -/
def Stores (t : Journal σ) : CacheOp byte clusterSize size → Prop
  | .purge k driver =>
    succeeded (ccPurgeCacheFile k driver.callbacks t.session.store t.session.file).1 = true →
    ∀ i, i < size →
      byte (ccPurgeCacheFile k driver.callbacks t.session.store t.session.file).2.2 i = t.session.written i
  | _ => True

/-- In a run of calls that meet none of the other slips, a purge stores every write when no page is left that
a write touched while it was unmarked and that no write has ended on since it had a copy. -/
theorem purge_stores {checked : Bool} {heap : Nat → Bool} {file file₀ : File} {store : σ} {t : Journal σ}
    {ops : List (CacheOp byte clusterSize size)} {op : CacheOp byte clusterSize size}
    (geometry : 16 < clusterSize ∧ clusterSize < pageSize)
    (begun : ccInitializeFileCaching heap file clusterSize = some (Status.success.code, file₀))
    (run : Run (Guarded (PurgeSafe checked) (JournalStep checked)) ⟨⟨file₀, store, byte store⟩, fun _ => False⟩ ops t)
    (safe : PurgeSafe checked t op) (left : ∀ p, ¬ t.unmarked p) : Stores t op := by
  have durable : Durable byte clusterSize size t := by
    refine run.invariant ?_ ⟨ccInitializeFileCaching_coherent geometry begun, fun i _ => Or.inr (Or.inr rfl)⟩
    intro t op t' durable step
    exact journalStep_durable durable step.1 step.2
  cases op with
  | read => trivial
  | write => trivial
  | purge k driver =>
    intro succeeds i inside
    have known := (purge_stored (k := k) durable safe i inside).resolve_left (left _)
    exact known.resolve_left fun marked => marked.2 succeeds

end Journals

def purgeAll : CacheOp (id : Buffer → Buffer) 512 4096 := .purge enough memoryDriver

def journal (t : Session Buffer) : Journal Buffer := ⟨t, fun _ => False⟩

/-- The cache after the byte is read, whose page has a copy in the first slot. -/
def holdingZero : Session Buffer where
  file := {
    readThrough := false
    writeThrough := false
    cacheMap := countRebuild (readPiece enough memoryCallbacks (fun _ => 0) true (Request.start 0 1) (fun _ => 0)
      ⟨freshMap 512 32, fun _ => 0, 0⟩).2.cacheMap }
  store := fun _ => 0
  written := fun _ => 0

theorem readOne_first : cacheStep true (began false false) readOne = some holdingZero := by
  have missing : ccpFindAndReadWrite false (Request.start 0 1) ⟨freshMap 512 32, fun _ => 0, 0⟩ =
      (Status.notFound.code, Request.start 0 1, ⟨freshMap 512 32, fun _ => 0, 0⟩) := repeatRead_missing rfl
  have one_page : ¬ (Request.start 0 1).More := by decide
  have transfer : ccCacheReadFile true enough memoryCallbacks (fun _ => 0) (opened false false) 0 (fun _ => 0) 1 0 =
      afterSearch (ccpActualRead enough memoryCallbacks (fun _ => 0) true)
        (Status.notFound.code, Request.start 0 1, ⟨freshMap 512 32, fun _ => 0, 0⟩) := missing ▸ rfl
  show (ccCacheReadFile true enough memoryCallbacks (fun _ => 0) (opened false false) 0 (fun _ => 0) 1 0).map _ = _
  rw [transfer, afterSearch, if_pos rfl, ccpActualRead, ccpActual_once one_page]
  rfl

/-- What the write makes of that copy. -/
def markedOne : Transfer :=
  markModified true 0 (copyPiece true (Request.start 0 1) 0 (holdingZero.file.cacheMap.pageCacheMap.getD 0 {}) 1
    ⟨holdingZero.file.cacheMap, fun _ => 1, 0⟩)

theorem writeOne_again :
    ccCacheWriteFile true enough memoryCallbacks (fun _ => 0) holdingZero.file 0 (fun _ => 1) 1 0 =
      some (Status.success.code, { markedOne with cacheMap := countRebuild markedOne.cacheMap }) := by
  have found := @repeatRead_once true (Request.start 0 1) ⟨holdingZero.file.cacheMap, fun _ => 1, 0⟩ 0 rfl (by decide)
  have search : ccpFindAndReadWrite true (Request.start 0 1) ⟨holdingZero.file.cacheMap, fun _ => 1, 0⟩ =
    repeatRead true (Request.start 0 1) ⟨holdingZero.file.cacheMap, fun _ => 1, 0⟩ := rfl
  have transfer : ccCacheWriteFile true enough memoryCallbacks (fun _ => 0) holdingZero.file 0 (fun _ => 1) 1 0 =
      afterSearch (ccpActualWrite enough memoryCallbacks fun _ => 0)
        (ccpFindAndReadWrite true (Request.start 0 1) ⟨holdingZero.file.cacheMap, fun _ => 1, 0⟩) := rfl
  rw [transfer, search, found]
  rfl

/-- The byte is in the cache on a marked page. -/
def holdingMarked : Session Buffer where
  file := ⟨false, false, countRebuild markedOne.cacheMap⟩
  store := fun _ => 0
  written := memcpy (fun _ => 0) 0 (fun _ => 1) 0 1

theorem writeOne_second : cacheStep true holdingZero writeOne = some holdingMarked := by
  show (ccCacheWriteFile true enough memoryCallbacks (fun _ => 0) holdingZero.file 0 (fun _ => 1) 1 0).map _ = _
  rw [writeOne_again]
  rfl

theorem readOne_allowed : CacheSafe true (began false false) readOne := by
  refine ⟨fun p _ _ _ => memory_honest _ _ _, ?_, fun through => Bool.noConfusion through, Or.inl rfl⟩
  intro p _ below
  exact absurd below (Nat.not_lt_zero p)

theorem writeOne_allowed : CacheSafe true holdingZero writeOne := by
  refine ⟨Or.inl ⟨?_, Or.inl (by decide), fun through => Bool.noConfusion through⟩, Or.inl rfl⟩
  intro p _ below missing
  have first : p = 0 := Nat.le_zero.mp below
  rw [first] at missing
  have copied : (holdingZero.file.cacheMap.copyOf 0).isSome = true := by decide
  rw [missing] at copied
  cases copied

theorem purgeAll_safe (t : Journal Buffer) : PurgeSafe true t purgeAll := by
  intro p _ w writes _ i _ _
  cases Option.some.inj writes
  exact (by decide : succeeded Status.success.code = true)

theorem purged_byte_stored :
    (ccPurgeCacheFile enough memoryCallbacks holdingMarked.store holdingMarked.file).2.2 0 = 1 := by
  have begun : ccInitializeFileCaching (fun _ => true) (opened false false) 512 =
    some (Status.success.code, opened false false) := rfl
  have first : JournalStep true (journal (began false false)) readOne (journal holdingZero) :=
    ⟨readOne_first, trivial, rfl⟩
  have second : JournalStep true (journal holdingZero) writeOne
      ⟨holdingMarked, unmarkedAfter (journal holdingZero) writeOne⟩ := by
    refine ⟨writeOne_second, ?_, rfl⟩
    intro res ends
    cases writeOne_again.symm.trans ends
    exact (by decide : succeeded Status.success.code = true)
  have run : Run (Guarded (PurgeSafe true) (JournalStep true)) (journal (began false false)) [readOne, writeOne]
      ⟨holdingMarked, unmarkedAfter (journal holdingZero) writeOne⟩ :=
    .next ⟨readOne_allowed, first⟩ (.next ⟨writeOne_allowed, second⟩ (.done _))
  have left : ∀ p, ¬ unmarkedAfter (journal holdingZero) writeOne p := by
    rintro p ⟨unmarked | ⟨_, below, _⟩, only⟩
    · exact unmarked
    · have here : p = 0 := Nat.le_zero.mp below
      exact only ⟨here, here ▸ (by decide)⟩
  exact purge_stores (by decide) begun run (purgeAll_safe _) left (by decide) 0 (by decide)

/-- A byte written to a page that had no copy is not stored by the purge. -/
theorem purge_loses_write : ¬ ∀ t, Run (JournalStep true) (journal (began false false)) [writeOne] t →
    Stores t purgeAll := by
  intro claim
  have step : JournalStep true (journal (began false false)) writeOne
      ⟨holdingOne false, unmarkedAfter (journal (began false false)) writeOne⟩ := by
    refine ⟨writeOne_step false, ?_, rfl⟩
    intro res ends
    cases (writeOne_ends false).symm.trans ends
    exact (by decide : succeeded Status.cached.code = true)
  have same := claim _ (.next step (.done _)) (by decide) 0 (by decide)
  exact absurd same (by decide)

end Gr8os.Cc
