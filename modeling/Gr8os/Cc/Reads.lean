import Gr8os.Cc.Transfers

/-! Reads of a cached file: which pages come from the backing store, and what the caller's buffer then holds. -/
namespace Gr8os.Cc

open Bytes

/-- Two maps of one file, whose clusters are the same. -/
structure SameClusters (m m' : CacheMap) : Prop where
  clusterSize : m'.clusterSize = m.clusterSize
  clustersPerPage : m'.clustersPerPage = m.clustersPerPage

theorem SameClusters.refl (m : CacheMap) : SameClusters m m := ⟨rfl, rfl⟩

theorem SameClusters.grown {touched : Nat → Prop} {m m' m'' : CacheMap} (same : SameClusters m m')
    (grown : Grown touched m' m'') : SameClusters m m'' where
  clusterSize := grown.clusterSize.trans same.clusterSize
  clustersPerPage := grown.clustersPerPage.trans same.clustersPerPage

section Store

variable {σ : Type} {k : Resources} {cb : Callbacks σ} {byte : σ → Nat → BitVec 8} {m : CacheMap} {size : Nat} {s : σ}

/-- What the page's status says of its clusters is so: it is no success when a cluster inside the file failed. -/
def Honest (k : Resources) (cb : Callbacks σ) (m : CacheMap) (size p : Nat) : Prop :=
  succeeded (pageStatus k cb m.clustersPerPage p) = true → AllRead cb m size p

theorem page_read {m' : CacheMap} {p : Nat} (same : SameClusters m m') (serves : Serves cb byte m.clusterSize size)
    (divided : m.Divided) (honest : Honest k cb m size p)
    (succeeds : succeeded (pageStatus k cb m.clustersPerPage p) = true) (b : Buffer) (i : Nat) (inside : i < size)
    (here : i / 4096 = p) : (ccpActualReadPage k cb s m' p b).2 (i % 4096) = byte s i := by
  have clusters : Serves cb byte m'.clusterSize size := same.clusterSize ▸ serves
  have divides : m'.Divided := by
    unfold CacheMap.Divided
    rw [same.clusterSize, same.clustersPerPage]
    exact divided
  have all : AllRead cb m' size p := by
    unfold AllRead
    rw [same.clusterSize, same.clustersPerPage]
    exact honest succeeds
  have bytes := ccpActualReadPage_bytes clusters divides all s b (same.clustersPerPage ▸ succeeds) (i % 4096)
    (Nat.mod_lt _ (by decide)) (by omega)
  rw [bytes]
  congr 1
  omega

theorem Request.more_iff {r : Request} (small : r.size ≤ 2 ^ 31) : r.More ↔ r.readpart < r.size := by
  have := r.readpart_pos
  have : r.next.size = r.size - r.readpart := rfl
  unfold Request.More
  omega

theorem Request.piece_le (r : Request) : r.pageOffset + r.piece ≤ 4096 ∧ r.piece ≤ r.size := by
  have := r.pageOffset.isLt
  unfold Request.piece Request.readpart pageSize
  split <;> omega

/-- The first piece of a request, when it is read from the backing store. -/
structure PieceRead (k : Resources) (cb : Callbacks σ) (m : CacheMap) (disk V : Nat → BitVec 8) (size : Nat)
    (r : Request) (t : Transfer) (res : BitVec 32 × Transfer) : Prop where
  status : res.1 = pageStatus k cb m.clustersPerPage r.pageNumber
  grown : Grown (· = r.pageNumber) t.cacheMap res.2.cacheMap
  agrees : ∀ i, i < size → res.2.cacheMap.view disk i = V i
  buffer : succeeded res.1 = true → res.2.buffer = memcpy t.buffer r.buffer V r.position r.piece

theorem readPiece_spec {V : Nat → BitVec 8} {cache : Bool} {r : Request} {t : Transfer}
    (same : SameClusters m t.cacheMap) (serves : Serves cb byte m.clusterSize size) (divided : m.Divided)
    (agrees : ∀ i, i < size → t.cacheMap.view (byte s) i = V i)
    (current : ∀ i, i < size → i / 4096 = r.pageNumber → byte s i = V i)
    (uncached : cache = true → t.cacheMap.copyOf r.pageNumber = none) (inside : r.position + r.size ≤ size)
    (honest : Honest k cb m size r.pageNumber) (b : Buffer) :
    PieceRead k cb m (byte s) V size r t (readPiece k cb s cache r b t) := by
  have status := ccpActualReadPage_status k cb s t.cacheMap r.pageNumber b
  rw [same.clustersPerPage] at status
  have bytes := page_read (s := s) same serves divided honest
  unfold readPiece
  dsimp only
  rw [status]
  cases succeeds : succeeded (pageStatus k cb m.clustersPerPage r.pageNumber) with
  | false => exact ⟨rfl, .refl _ _, agrees, fun succeeded => absurd (succeeds.symm.trans succeeded) (by decide)⟩
  | true =>
    have page : ∀ i, i < size → i / 4096 = r.pageNumber →
        (ccpActualReadPage k cb s t.cacheMap r.pageNumber b).2 (i % 4096) = V i := by
      intro i below here
      rw [bytes succeeds b i below here, current i below here]
    have copied : ∀ j, j < r.piece → (ccpActualReadPage k cb s t.cacheMap r.pageNumber b).2 (r.pageOffset + j) =
        V (r.position + j) := by
      intro j below
      have fits := r.piece_le
      have number : (r.position + j) / 4096 = r.pageNumber := by
        unfold Request.position
        omega
      have place : (r.position + j) % 4096 = r.pageOffset + j := by
        unfold Request.position
        omega
      rw [← page (r.position + j) (by omega) number, place]
    rw [if_pos rfl]
    cases cache with
    | false => exact ⟨rfl, .refl _ _, agrees, fun _ => memcpy_congr copied⟩
    | true =>
      have missing := uncached rfl
      obtain ⟨grown, absent | fresh⟩ :=
        ccpCacheFilePage_spec k (ccpActualReadPage k cb s t.cacheMap r.pageNumber b).2 missing
      · refine ⟨rfl, grown, ?_, fun _ => memcpy_congr copied⟩
        intro i below
        rw [← agrees i below]
        by_cases here : i / 4096 = r.pageNumber
        · exact (CacheMap.view_none (here ▸ absent)).trans (CacheMap.view_none (here ▸ missing)).symm
        · simp only [CacheMap.view, if_true, grown.other _ here]
      · refine ⟨rfl, grown, ?_, fun _ => memcpy_congr copied⟩
        intro i below
        rw [if_pos rfl, view_of_copy (fun q different => grown.other q different) fresh]
        by_cases here : i / 4096 = r.pageNumber
        · rw [if_pos here]
          exact page i below here
        · rw [if_neg here]
          exact agrees i below

/-- The page is read from the backing store: it is the first of a transfer, or it has no copy. -/
def Fetched (m : CacheMap) (r : Request) (p : Nat) : Prop := p = r.pageNumber ∨ m.copyOf p = none

instance (m : CacheMap) (r : Request) (p : Nat) : Decidable (Fetched m r p) := inferInstanceAs (Decidable (_ ∨ _))

/-- A whole request, when its first page is read from the backing store. -/
structure PagesRead (k : Resources) (cb : Callbacks σ) (m : CacheMap) (disk V : Nat → BitVec 8) (size : Nat)
    (r : Request) (t : Transfer) (res : BitVec 32 × Transfer) : Prop where
  grown : Grown (r.pageNumber ≤ ·) t.cacheMap res.2.cacheMap
  agrees : ∀ i, i < size → res.2.cacheMap.view disk i = V i
  status : res.1 = if Fetched t.cacheMap r r.last then pageStatus k cb m.clustersPerPage r.last else
    Status.success.code
  buffer : (∀ p, r.pageNumber ≤ p → p < r.last → Fetched t.cacheMap r p →
      succeeded (pageStatus k cb m.clustersPerPage p) = true) →
    succeeded res.1 = true → res.2.buffer = memcpy t.buffer r.buffer V r.position r.size

theorem Request.piece_long {r : Request} (long : r.readpart < r.size) : r.piece = r.readpart := if_pos long

theorem Request.piece_short {r : Request} (short : r.size ≤ r.readpart) : r.piece = r.size :=
  if_neg (Nat.not_lt.mpr short)

/-- Pages after the first have a copy exactly if they had one before the first was dealt with. -/
theorem fetched_later {m' : CacheMap} {r r' : Request} {p : Nat} (grown : Grown (· = r.pageNumber) m m')
    (later : r.pageNumber < r'.pageNumber) (above : r'.pageNumber ≤ p) (absent : m'.copyOf r'.pageNumber = none) :
    Fetched m' r' p ↔ Fetched m r p := by
  have different : p ≠ r.pageNumber := by omega
  unfold Fetched
  rw [grown.other p different]
  constructor
  · rintro (rfl | missing)
    · exact Or.inr ((grown.other _ different).symm.trans absent)
    · exact Or.inr missing
  · rintro (same | missing)
    · exact absurd same different
    · exact Or.inr missing

theorem PieceRead.found {V : Nat → BitVec 8} {r : Request} {t t₁ t₂ : Transfer} {status : BitVec 32}
    (long : r.readpart < r.size) (first : PieceRead k cb m (byte s) V size r t (status, t₁))
    (copied : ∀ p, r.next.pageNumber ≤ p → p ≤ r.next.last → t₁.cacheMap.copyOf p ≠ none)
    (done : ReadBy V r.next { t₁ with nBytes := 0 } r.next.size t₂) :
    PagesRead k cb m (byte s) V size r t (Status.success.code, t₂) := by
  have step := Advanced.next long
  have above : r.pageNumber < r.last := Request.last_of_long long
  have last : ¬ Fetched t.cacheMap r r.last := by
    rintro (only | missing)
    · omega
    · rw [← first.grown.other _ (Nat.ne_of_gt above), ← step.last_eq] at missing
      exact copied _ r.next.page_le_last (Nat.le_refl _) missing
  constructor
  · show Grown _ t.cacheMap t₂.cacheMap
    rw [done.cacheMap]
    exact first.grown.mono fun p same => Nat.le_of_eq same.symm
  · show ∀ i, i < size → t₂.cacheMap.view (byte s) i = V i
    rw [done.cacheMap]
    exact first.agrees
  · rw [if_neg last]
  · intro others _
    have told : status = pageStatus k cb m.clustersPerPage r.pageNumber := first.status
    have succeeds : succeeded status = true := by
      rw [told]
      exact others _ (Nat.le_refl _) above (Or.inl rfl)
    have whole : r.readpart + r.next.size = r.size := (Nat.add_comm ..).trans step.size
    rw [done.buffer, first.buffer succeeds, Request.piece_long long, step.position, step.buffer, ← whole]
    exact memcpy_memcpy

/-- The first piece, some of the rest from the cache, and a transfer that begins with another page. -/
theorem PieceRead.again {V : Nat → BitVec 8} {r r' : Request} {t t₁ t₂ : Transfer} {status : BitVec 32} {n : Nat}
    {res : BitVec 32 × Transfer} (long : r.readpart < r.size)
    (first : PieceRead k cb m (byte s) V size r t (status, t₁)) (advanced : Advanced r.next r' n)
    (absent : t₁.cacheMap.copyOf r'.pageNumber = none) (part : ReadBy V r.next { t₁ with nBytes := 0 } n t₂)
    (rest : PagesRead k cb m (byte s) V size r' t₂ res) : PagesRead k cb m (byte s) V size r t res := by
  have step := Advanced.next long
  have above : r.pageNumber < r.last := Request.last_of_long long
  have later : r.pageNumber < r'.pageNumber := Nat.lt_of_lt_of_le (Nat.lt_succ_self _) advanced.page_le
  have same_last : r'.last = r.last := advanced.last_eq.trans step.last_eq
  have kept : t₂.cacheMap = t₁.cacheMap := part.cacheMap
  have fetched : ∀ p, r'.pageNumber ≤ p → (Fetched t₂.cacheMap r' p ↔ Fetched t.cacheMap r p) := by
    intro p below
    rw [kept]
    exact fetched_later first.grown later below absent
  constructor
  · have front : Grown (r.pageNumber ≤ ·) t.cacheMap t₂.cacheMap :=
      kept ▸ first.grown.mono fun p same => Nat.le_of_eq same.symm
    exact front.trans (rest.grown.mono fun p below => Nat.le_trans (Nat.le_of_lt later) below)
  · exact rest.agrees
  · have end_of := fetched r'.last r'.page_le_last
    rw [rest.status, same_last] at *
    simp only [end_of]
  · intro others succeeds
    have told : status = pageStatus k cb m.clustersPerPage r.pageNumber := first.status
    have front : succeeded status = true := by
      rw [told]
      exact others _ (Nat.le_refl _) above (Or.inl rfl)
    have back : ∀ p, r'.pageNumber ≤ p → p < r'.last → Fetched t₂.cacheMap r' p →
        succeeded (pageStatus k cb m.clustersPerPage p) = true := by
      intro p below under missing
      exact others p (by omega) (same_last ▸ under) ((fetched p below).mp missing)
    have size_eq : r.readpart + (n + r'.size) = r.size := by
      have := advanced.size
      have := step.size
      omega
    rw [rest.buffer back succeeds, part.buffer, first.buffer front, Request.piece_long long, ← size_eq,
      ← memcpy_memcpy, ← memcpy_memcpy, ← step.position, ← step.buffer, ← advanced.position, ← advanced.buffer]

theorem ccpActualRead_spec {V : Nat → BitVec 8} {cache : Bool} (serves : Serves cb byte m.clusterSize size)
    (divided : m.Divided) {r : Request} {t : Transfer} {res : BitVec 32 × Transfer}
    (same : SameClusters m t.cacheMap) (agrees : ∀ i, i < size → t.cacheMap.view (byte s) i = V i)
    (current : ∀ i, i < size → i / 4096 = r.pageNumber → byte s i = V i)
    (uncached : cache = true → t.cacheMap.copyOf r.pageNumber = none) (inside : r.position + r.size ≤ size)
    (small : r.size ≤ 2 ^ 31)
    (honest : ∀ p, r.pageNumber ≤ p → p ≤ r.last → Fetched t.cacheMap r p → Honest k cb m size p)
    (ends : ccpActualRead k cb s cache r t = some res) : PagesRead k cb m (byte s) V size r t res := by
  unfold ccpActualRead at ends
  -- Every case begins with the first piece, and the search that follows sees the map that it leaves.
  fun_induction ccpActual k (readPiece k cb s cache) false r t with
  | case1 r t missing => cases ends
  | case2 r t tempPage allocated status t₁ piece more found missing ih =>
    have long := (Request.more_iff small).mp more
    have step := Advanced.next long
    have first := readPiece_spec same serves divided agrees current uncached inside
      (honest _ (Nat.le_refl _) r.page_le_last (Or.inl rfl)) tempPage
    rw [piece] at first
    have search : Found r.next t₁.cacheMap _ _ found :=
      repeatRead_read r.next { t₁ with nBytes := 0 } first.agrees (by have := step.position; have := step.size; omega)
    obtain ⟨n, advanced, copied, absent, part⟩ := search.stopped missing
    generalize found.2.1 = r', found.2.2 = t₂ at *
    have kept : t₂.cacheMap = t₁.cacheMap := part.cacheMap
    have later : r.pageNumber < r'.pageNumber := Nat.lt_of_lt_of_le (Nat.lt_succ_self _) advanced.page_le
    have same_last : r'.last = r.last := advanced.last_eq.trans step.last_eq
    refine first.again long advanced absent part (ih ?_ ?_ ?_ ?_ ?_ ?_ ?_ ends)
    · exact kept ▸ same.grown first.grown
    · exact kept ▸ first.agrees
    · intro i below here
      rw [← first.agrees i below]
      exact (CacheMap.view_none (here ▸ absent)).symm
    · exact fun _ => kept ▸ absent
    · show r'.position + r'.size ≤ size
      have := step.position
      have := step.size
      have := advanced.position
      have := advanced.size
      omega
    · show r'.size ≤ 2 ^ 31
      have := step.size
      have := advanced.size
      omega
    · intro p below under gone
      apply honest p (Nat.le_trans (Nat.le_of_lt later) below) (same_last ▸ under)
      exact (fetched_later first.grown later below absent).mp (kept ▸ gone)
  | case3 r t tempPage allocated status t₁ piece more found present =>
    cases Option.some.inj ends
    have long := (Request.more_iff small).mp more
    have step := Advanced.next long
    have first := readPiece_spec same serves divided agrees current uncached inside
      (honest _ (Nat.le_refl _) r.page_le_last (Or.inl rfl)) tempPage
    rw [piece] at first
    have search : Found r.next t₁.cacheMap _ _ found :=
      repeatRead_read r.next { t₁ with nBytes := 0 } first.agrees (by have := step.position; have := step.size; omega)
    obtain ⟨code, copied, done⟩ := search.whole present
    rw [code]
    exact first.found long copied done
  | case4 r t tempPage allocated status t₁ piece short =>
    cases Option.some.inj ends
    have first := readPiece_spec same serves divided agrees current uncached inside
      (honest _ (Nat.le_refl _) r.page_le_last (Or.inl rfl)) tempPage
    rw [piece] at first
    have within : r.size ≤ r.readpart := Nat.le_of_not_gt (mt (Request.more_iff small).mpr short)
    have only := Request.last_of_short within
    refine ⟨first.grown.mono fun p same => Nat.le_of_eq same.symm, first.agrees, ?_, ?_⟩
    · have fetched : Fetched t.cacheMap r r.last := Or.inl only
      rw [if_pos fetched, only]
      exact first.status
    · intro _ succeeds
      rw [← Request.piece_short within]
      exact first.buffer succeeds

theorem countRebuild_eq (m : CacheMap) : countRebuild m = { m with shouldRebuild := m.shouldRebuild + 1 } := by
  unfold countRebuild ccpRebuildCacheMap
  simp only [ite_self]

theorem countRebuild_grown (m : CacheMap) (touched : Nat → Prop) : Grown touched m (countRebuild m) := by
  rw [countRebuild_eq]
  exact ⟨rfl, rfl, fun _ _ => rfl, fun _ none => none, fun _ marked => marked, fun sound => sound, fun unique => unique⟩

theorem countRebuild_view (m : CacheMap) (disk : Nat → BitVec 8) : (countRebuild m).view disk = m.view disk := by
  rw [countRebuild_eq]
  rfl

theorem Request.start_position (offset size : BitVec 32) : (Request.start offset size).position = offset.toNat :=
  Nat.div_add_mod' offset.toNat 4096

/-- A read of the file takes the page from the backing store. -/
def FromStore (file : File) (r : Request) (p : Nat) : Prop :=
  file.cacheMap.copyOf p = none ∨ (file.readThrough = true ∧ p = r.pageNumber)

/-- A read that meets none of the cache's slips. No page that it takes from the backing store hides a failed
cluster, a page before the last that fails is told of by the last one, a read past the cache begins with
a page whose copy, if there is one, agrees with the backing store, and the size is no negative number. -/
structure ReadSafe (checked : Bool) (k : Resources) (cb : Callbacks σ) (disk : Nat → BitVec 8) (size : Nat)
    (file : File) (r : Request) : Prop where
  honest : ∀ p, r.pageNumber ≤ p → p ≤ r.last → FromStore file r p → Honest k cb file.cacheMap size p
  told : ∀ p, r.pageNumber ≤ p → p < r.last → FromStore file r p →
    succeeded (pageStatus k cb file.cacheMap.clustersPerPage p) = true ∨
      (FromStore file r r.last ∧ ¬ succeeded (pageStatus k cb file.cacheMap.clustersPerPage r.last) = true)
  current : file.readThrough = true → ∀ i, i < size → i / 4096 = r.pageNumber →
    file.cacheMap.view disk i = disk i
  small : checked = true ∨ r.size ≤ 2 ^ 31

/-- What a read of the cache does: the file that the cache shows stays, and a read that succeeds returns it. -/
structure FileRead (m : CacheMap) (disk V : Nat → BitVec 8) (size : Nat) (r : Request) (b : Buffer)
    (res : BitVec 32 × Transfer) : Prop where
  grown : Grown (fun _ => True) m res.2.cacheMap
  agrees : ∀ i, i < size → res.2.cacheMap.view disk i = V i
  buffer : succeeded res.1 = true → res.2.buffer = memcpy b r.buffer V r.position r.size

theorem not_succeeded_cached {status : BitVec 32} (succeeds : succeeded
    (if succeeded status = true then Status.cached.code else status) = true) : succeeded status = true := by
  cases told : succeeded status with
  | true => rfl
  | false => simp [told] at succeeds

theorem small_of_asserted {checked : Bool} {n : Nat} (asserted : ¬ (checked && decide (pageSize * 20 ≤ n)) = true)
    (small : checked = true ∨ n ≤ 2 ^ 31) : n ≤ 2 ^ 31 := by
  cases checked with
  | false => simpa using small
  | true =>
    have below : ¬ pageSize * 20 ≤ n := by simpa using asserted
    unfold pageSize at below
    omega

/-- What is left of a read when the search has come to a page that is not in the cache. -/
theorem FileRead.of_pages {checked : Bool} {V : Nat → BitVec 8} {file : File} {r r' : Request} {t : Transfer}
    {b : Buffer} {n : Nat} {res : BitVec 32 × Transfer} {status : BitVec 32}
    (safe : ReadSafe checked k cb (byte s) size file r) (advanced : Advanced r r' n)
    (kept : t.cacheMap = file.cacheMap) (front : t.buffer = memcpy b r.buffer V r.position n)
    (fetched : ∀ p, r'.pageNumber ≤ p → (Fetched t.cacheMap r' p ↔ FromStore file r p))
    (told : succeeded status = true → succeeded res.1 = true)
    (read : PagesRead k cb file.cacheMap (byte s) V size r' t res) :
    FileRead file.cacheMap (byte s) V size r b (status, res.2) := by
  refine ⟨kept ▸ read.grown.mono fun _ _ => trivial, read.agrees, ?_⟩
  intro succeeds
  have same_last : r'.last = r.last := advanced.last_eq
  have others : ∀ p, r'.pageNumber ≤ p → p < r'.last → Fetched t.cacheMap r' p →
      succeeded (pageStatus k cb file.cacheMap.clustersPerPage p) = true := by
    intro p below under gone
    cases safe.told p (Nat.le_trans advanced.page_le below) (same_last ▸ under) ((fetched p below).mp gone) with
    | inl read => exact read
    | inr last_fails =>
      have last : Fetched t.cacheMap r' r'.last := by
        rw [fetched _ r'.page_le_last, same_last]
        exact last_fails.1
      have ended := read.status
      rw [if_pos last, same_last] at ended
      exact absurd (ended ▸ told succeeds) last_fails.2
  show res.2.buffer = _
  rw [read.buffer others (told succeeds), front, advanced.position, advanced.buffer, ← advanced.size, Nat.add_comm r'.size]
  exact memcpy_memcpy

theorem ccCacheReadFile_spec {checked : Bool} {V : Nat → BitVec 8} {file : File} {offset length : BitVec 32}
    {b : Buffer} {nBytesRead : BitVec 32} {res : BitVec 32 × Transfer}
    (serves : Serves cb byte file.cacheMap.clusterSize size) (divided : file.cacheMap.Divided)
    (agrees : ∀ i, i < size → file.cacheMap.view (byte s) i = V i) (inside : offset.toNat + length.toNat ≤ size)
    (safe : ReadSafe checked k cb (byte s) size file (Request.start offset length))
    (ends : ccCacheReadFile checked k cb s file offset b length nBytesRead = some res) :
    FileRead file.cacheMap (byte s) V size (Request.start offset length) b res := by
  unfold ccCacheReadFile at ends
  have place := Request.start_position offset length
  have within : (Request.start offset length).position + (Request.start offset length).size ≤ size := by
    rw [place]
    exact inside
  generalize Request.start offset length = r at *
  dsimp only at ends
  split at ends
  · cases ends
  · rename_i asserted
    have small := small_of_asserted asserted safe.small
    split at ends
    · rename_i through
      have fetched : ∀ p, r.pageNumber ≤ p → (Fetched file.cacheMap r p ↔ FromStore file r p) := by
        intro p _
        simp only [Fetched, FromStore, through, true_and, or_comm]
      refine FileRead.of_pages safe (.refl r) rfl (memcpy_zero ..).symm fetched id
        (ccpActualRead_spec serves divided (.refl _) agrees ?_ (fun cache => Bool.noConfusion cache) within small ?_ ends)
      · exact fun i below here => (safe.current through i below here).symm.trans (agrees i below)
      · exact fun p above under gone => safe.honest p above under ((fetched p above).mp gone)
    · rename_i cached
      have search := repeatRead_read r { cacheMap := file.cacheMap, buffer := b, nBytes := 0 } agrees within
      have reached : ccpFindAndReadWrite false r { cacheMap := file.cacheMap, buffer := b, nBytes := nBytesRead } =
        repeatRead false r { cacheMap := file.cacheMap, buffer := b, nBytes := 0 } := rfl
      rw [reached] at ends
      have missing : ∀ p, ¬ (file.readThrough = true ∧ p = r.pageNumber) := fun p through => cached through.1
      have known : ∀ res, FileRead file.cacheMap (byte s) V size r b res → FileRead file.cacheMap (byte s) V size r b
          (res.1, { res.2 with cacheMap := countRebuild res.2.cacheMap }) := by
        intro res read
        refine ⟨read.grown.trans (countRebuild_grown _ _), ?_, read.buffer⟩
        rw [countRebuild_view]
        exact read.agrees
      generalize repeatRead false r { cacheMap := file.cacheMap, buffer := b, nBytes := 0 } = outcome at search ends
      cases search with
      | all copied done =>
        have different : ¬ Status.success.code = Status.notFound.code := by decide
        simp only [afterSearch, if_neg different, Option.bind_eq_bind, Option.bind_some, Option.some.injEq] at ends
        cases ends
        apply known (_, _)
        exact ⟨done.cacheMap ▸ .refl _ _, fun i below => done.cacheMap ▸ agrees i below, fun _ => done.buffer⟩
      | @missing r' t' n advanced copied absent part =>
        simp only [afterSearch, if_true, Option.bind_eq_bind, Option.bind_map, Option.bind_eq_some_iff,
          Option.some.injEq, Function.comp_apply] at ends
        obtain ⟨res', ends, rfl⟩ := ends
        have kept : t'.cacheMap = file.cacheMap := part.cacheMap
        have fetched : ∀ p, r'.pageNumber ≤ p → (Fetched t'.cacheMap r' p ↔ FromStore file r p) := by
          intro p _
          simp only [Fetched, FromStore, missing, or_false, kept]
          constructor
          · rintro (rfl | gone)
            · exact absent
            · exact gone
          · exact Or.inr
        apply known (_, _)
        refine FileRead.of_pages safe advanced kept part.buffer fetched not_succeeded_cached
          (ccpActualRead_spec serves divided ?_ ?_ ?_ ?_ ?_ ?_ ?_ ends)
        · exact kept ▸ .refl _
        · exact fun i below => kept ▸ agrees i below
        · exact fun i below here => (CacheMap.view_none (here ▸ absent)).symm.trans (agrees i below)
        · exact fun _ => kept ▸ absent
        · have := advanced.position
          have := advanced.size
          omega
        · have := advanced.size
          omega
        · intro p above under gone
          exact safe.honest p (Nat.le_trans advanced.page_le above) (advanced.last_eq ▸ under) ((fetched p above).mp gone)

end Store

end Gr8os.Cc
