import Gr8os.Cc.ReadLengths

/-! Reads that return the whole of what they ask for, of files that nothing was written to. -/
namespace Gr8os.Cc

open Bytes

section reads

variable {σ : Type} {k : Resources} {cb : Callbacks σ} {byte : σ → Nat → BitVec 8} {s : σ} {size : Nat} {file : File}
  {r : Request} {checked : Bool}

/-- The cache shows nothing but the backing store's bytes. -/
def Clean (disk : Nat → BitVec 8) (size : Nat) (m : CacheMap) : Prop := ∀ i < size, m.view disk i = disk i

/-- A range inside the file, of whose pages the last is the only one that may come from the backing store. -/
structure OnePage (k : Resources) (cb : Callbacks σ) (file : File) (size : Nat) (r : Request) : Prop where
  inside : r.position + r.size ≤ size
  short : r.size < 20 * pageSize
  copied : ∀ p, r.pageNumber ≤ p → p < r.last → ¬FromStore file r p
  allocated : FromStore file r r.last → (k.tempPage r.last).isSome = true
  read : FromStore file r r.last → pageStatus k cb file.cacheMap.clustersPerPage r.last = Status.success.code
  honest : FromStore file r r.last → Honest k cb file.cacheMap size r.last

/-- What a read that returns the whole range leaves. -/
structure ReadWhole (file : File) (disk : Nat → BitVec 8) (size : Nat) (r : Request) (b : Buffer)
    (res : BitVec 32 × Transfer) : Prop where
  status : res.1 = Status.success.code ∨ res.1 = Status.cached.code
  nBytes : res.2.nBytes.toNat = r.size
  buffer : res.2.buffer = memcpy b r.buffer disk r.position r.size
  clusters : SameClusters file.cacheMap res.2.cacheMap
  clean : Clean disk size res.2.cacheMap

theorem ReadWhole.succeeds {disk : Nat → BitVec 8} {b : Buffer} {res : BitVec 32 × Transfer}
    (whole : ReadWhole file disk size r b res) : succeeded res.1 = true := by
  rcases whole.status with success | cached
  · rw [success]
    decide
  · rw [cached]
    decide

theorem ReadWhole.completed {disk : Nat → BitVec 8} {b : Buffer} {res : BitVec 32 × Transfer}
    (whole : ReadWhole file disk size r b res) : res.1 ≠ Status.pending.code := by
  rcases whole.status with success | cached
  · rw [success]
    decide
  · rw [cached]
    decide

theorem OnePage.safe {disk : Nat → BitVec 8} (page : OnePage k cb file size r) (clean : Clean disk size file.cacheMap) :
    ReadSafe checked k cb disk size file r where
  honest p above below taken := by
    by_cases before : p < r.last
    · exact absurd taken (page.copied p above before)
    · have same : p = r.last := by omega
      exact same ▸ page.honest (same ▸ taken)
  told p above before taken := absurd taken (page.copied p above before)
  current _ i inside _ := clean i inside
  small := by
    have short := page.short
    unfold pageSize at short
    exact .inr (by omega)

theorem OnePage.ends (page : OnePage k cb file size r) (divided : file.cacheMap.Divided) (taken : FromStore file r r.last) :
    EndsWith k cb file r (r.position + r.size) r.last where
  allocated := page.allocated taken
  clusters := by
    intro none
    unfold CacheMap.Divided at divided
    rw [none, Nat.zero_mul] at divided
    cases divided
  read := by
    rw [page.read taken]
    decide
  stops := by
    unfold Request.last
    omega
  left := .inl rfl

/-- Such a read is answered with the backing store's bytes, and shows them again afterwards. -/
theorem ccCacheReadFile_whole {offset length : BitVec 32} {b : Buffer}
    (serves : Serves cb byte file.cacheMap.clusterSize size) (divided : file.cacheMap.Divided)
    (clean : Clean (byte s) size file.cacheMap) (page : OnePage k cb file size (Request.start offset length)) :
    ∃ res, ccCacheReadFile checked k cb s file offset b length 0 = some res ∧
      ReadWhole file (byte s) size (Request.start offset length) b res := by
  have asserted : checked = true → length.toNat < 20 * pageSize := fun _ => page.short
  have inside : offset.toNat + length.toNat ≤ size := by
    have within := page.inside
    rw [Request.start_position] at within
    exact within
  have begun := ccCacheReadFile_begun k cb s file offset b asserted
  have spec (res : BitVec 32 × Transfer) := @ccCacheReadFile_spec σ k cb byte size s checked (byte s) file offset length b
    0 res serves divided clean inside (page.safe clean)
  have fits : (Request.start offset length).size < 4294967296 := length.isLt
  generalize ccCacheReadFile checked k cb s file offset b length 0 = outcome at begun spec ⊢
  generalize Request.start offset length = r at *
  cases begun with
  | @copied res none told returned =>
    have read := spec res rfl
    refine ⟨res, rfl, .inl told, ?_, read.buffer returned.succeeds, ?_, read.agrees⟩
    · rw [returned.nBytes, Nat.add_sub_cancel_left]
    · exact (SameClusters.refl _).grown read.grown
  | @taken r' n t taken =>
    have last : r'.pageNumber = r.last := by
      by_contra other
      exact page.copied _ taken.first.above (Nat.lt_of_le_of_ne taken.first.below other) taken.first.taken
    have ends := page.ends divided (last ▸ taken.first.taken)
    rw [← last] at ends
    obtain ⟨res, runs, returned⟩ := taken.returns fits taken.first.uncached ends fun _ _ _ => rfl
    have answered : (ccpActualRead k cb s (!file.readThrough) r' t).map (finish file) = some (finish file res) := by
      rw [runs, Option.map_some]
    have read := spec (finish file res) answered
    have returned : Returned _ r _ b (finish file res) := finish_returned.mpr returned
    refine ⟨finish file res, answered, ?_, ?_, read.buffer returned.succeeds, ?_, read.agrees⟩
    · have status : res.1 = Status.success.code := by
        have once := (taken.once_iff ends.stops).mpr ends.left
        rw [ccpActualRead_once once] at runs
        obtain ⟨buffer, allocated, rfl⟩ := Option.map_eq_some_iff.mp runs
        rw [(taken.piece _ fits taken.first.uncached allocated).1, last]
        exact page.read (last ▸ taken.first.taken)
      unfold finish
      split
      · exact .inl status
      · rw [status]
        exact .inr rfl
    · rw [returned.nBytes, Nat.add_sub_cancel_left]
    · exact (SameClusters.refl _).grown read.grown

/-- Clusters that are read, or that lie behind the end, leave the page with a success. -/
theorem clustersStatus_success {status : Nat → BitVec 32} {is : List Nat}
    (whole : ∀ i ∈ is, status i = Status.success.code ∨ status i = Status.endOfFile.code) :
    clustersStatus status is Status.success.code = Status.success.code := by
  induction is with
  | nil => rfl
  | cons i is ih =>
    have rest := ih fun j member => whole j (List.mem_cons_of_mem _ member)
    unfold clustersStatus
    rcases whole i List.mem_cons_self with read | ended
    · have goes_on : ¬Status.success.code = Status.endOfFile.code := by decide
      have present : ¬Status.success.code = Status.noMediaInDevice.code := by decide
      rw [read, if_neg goes_on, if_neg present]
      exact rest
    · rw [if_pos ended]

theorem pageStatus_success {m : CacheMap} {p : Nat} {read : CacheRead σ} (reads : cb.actualRead = some read)
    (clusters : m.clustersPerPage ≠ 0) (whole : ∀ i < m.clustersPerPage,
      read.status (p * m.clustersPerPage + i) = Status.success.code ∨
        read.status (p * m.clustersPerPage + i) = Status.endOfFile.code) :
    pageStatus k cb m.clustersPerPage p = Status.success.code := by
  rw [← pageStatus_withUnset cb Status.success.code p clusters]
  unfold pageStatus
  rw [reads]
  exact clustersStatus_success fun i member => whole i (List.mem_range.mp member)

/-- A range that lies in one page has no page before its last. -/
theorem Request.last_eq (within : r.pageOffset + r.size ≤ 4096) : r.last = r.pageNumber := by
  have := r.pageOffset.isLt
  unfold Request.last Request.position
  omega

end reads

end Gr8os.Cc
