import Gr8os.Cc.Reads

/-! Writes of a cached file: the pages that are put into the cache for them, and what the cache then shows. -/
namespace Gr8os.Cc

open Bytes

/-- How many pages of a stretch have no copy. -/
def CacheMap.absentPages (m : CacheMap) (first last : Nat) : Nat :=
  ((Finset.Icc first last).filter fun p => (m.copyOf p).isNone).card

theorem absentPages_mono {m m' : CacheMap} {first first' last : Nat} (later : first ≤ first')
    (same : ∀ p, first' ≤ p → m'.copyOf p = none → m.copyOf p = none) :
    m'.absentPages first' last ≤ m.absentPages first last := by
  apply Finset.card_le_card
  intro p
  simp only [Finset.mem_filter, Finset.mem_Icc, Option.isNone_iff_eq_none]
  rintro ⟨⟨above, below⟩, missing⟩
  exact ⟨⟨Nat.le_trans later above, below⟩, same p above missing⟩

theorem absentPages_lt {m m' : CacheMap} {first first' last : Nat} (later : first < first') (some : first ≤ last)
    (missing : m.copyOf first = none) (same : ∀ p, first' ≤ p → m'.copyOf p = none → m.copyOf p = none) :
    m'.absentPages first' last < m.absentPages first last := by
  apply Finset.card_lt_card
  constructor
  · intro p
    simp only [Finset.mem_filter, Finset.mem_Icc, Option.isNone_iff_eq_none]
    rintro ⟨⟨above, below⟩, missing⟩
    exact ⟨⟨by omega, below⟩, same p above missing⟩
  · intro contained
    have member : first ∈ (Finset.Icc first last).filter fun p => (m.copyOf p).isNone := by
      simp [some, missing]
    have further := (Finset.mem_filter.mp (contained member)).1
    exact absurd (Finset.mem_Icc.mp further).1 (by omega)

theorem Room.mono {k : Resources} {m : CacheMap} {n n' : Nat} (room : Room k m n) (fewer : n' ≤ n) : Room k m n' := by
  cases room with
  | inl free => exact Or.inl (by omega)
  | inr grows => exact Or.inr grows

section Store

variable {σ : Type} {k : Resources} {cb : Callbacks σ} {byte : σ → Nat → BitVec 8} {m : CacheMap} {size : Nat} {s : σ}

/-- The page is read without an error and there is memory to keep it in the cache. -/
structure Fetchable (k : Resources) (cb : Callbacks σ) (m : CacheMap) (size p : Nat) : Prop where
  honest : Honest k cb m size p
  read : succeeded (pageStatus k cb m.clustersPerPage p) = true
  allocated : k.cachedPage p = true

/-- The first piece of a request, when its page is put into the cache for it. -/
structure PieceWritten (m : CacheMap) (disk V : Nat → BitVec 8) (size : Nat) (r : Request) (t : Transfer)
    (res : BitVec 32 × Transfer) : Prop where
  status : succeeded res.1 = true
  grown : Grown (· = r.pageNumber) t.cacheMap res.2.cacheMap
  view : ∀ i, i < size → res.2.cacheMap.view disk i = memcpy V r.position t.buffer r.buffer r.piece i
  buffer : res.2.buffer = t.buffer

theorem writePiece_spec {V : Nat → BitVec 8} {r : Request} {t : Transfer} {n : Nat}
    (same : SameClusters m t.cacheMap) (serves : Serves cb byte m.clusterSize size) (divided : m.Divided)
    (agrees : ∀ i, i < size → t.cacheMap.view (byte s) i = V i) (missing : t.cacheMap.copyOf r.pageNumber = none)
    (sound : t.cacheMap.used ≤ t.cacheMap.cachedPages) (fetchable : Fetchable k cb m size r.pageNumber)
    (room : Room k t.cacheMap (n + 1)) (b : Buffer) :
    PieceWritten m (byte s) V size r t (writePiece k cb s r b t) ∧
      Room k (writePiece k cb s r b t).2.cacheMap n := by
  have status := ccpActualReadPage_status k cb s t.cacheMap r.pageNumber b
  rw [same.clustersPerPage] at status
  have bytes := page_read (s := s) same serves divided fetchable.honest fetchable.read b
  unfold writePiece
  dsimp only
  rw [status, if_pos fetchable.read]
  generalize (ccpActualReadPage k cb s t.cacheMap r.pageNumber b).2 = page at bytes ⊢
  obtain ⟨copied, left⟩ := ccpCacheFilePage_kept (memcpy page r.pageOffset t.buffer r.buffer r.piece) missing sound room
    fetchable.allocated
  obtain ⟨grown, _⟩ := ccpCacheFilePage_spec k (memcpy page r.pageOffset t.buffer r.buffer r.piece) missing
  refine ⟨⟨fetchable.read, grown, ?_, rfl⟩, left⟩
  intro i below
  rw [view_of_copy (fun q different => grown.other q different) copied]
  by_cases here : i / 4096 = r.pageNumber
  · rw [if_pos here]
    apply memcpy_page here
    rw [bytes i below here, ← agrees i below, CacheMap.view_none (here ▸ missing)]
  · rw [if_neg here, agrees i below]
    exact (memcpy_elsewhere r.piece_le.1 here).symm

/-- A whole request, when its first page is put into the cache for it. -/
structure PagesWritten (disk V : Nat → BitVec 8) (size : Nat) (r : Request) (t : Transfer)
    (res : BitVec 32 × Transfer) : Prop where
  status : succeeded res.1 = true
  grown : Grown (fun _ => True) t.cacheMap res.2.cacheMap
  view : ∀ i, i < size → res.2.cacheMap.view disk i = memcpy V r.position t.buffer r.buffer r.size i
  marked : t.cacheMap.copyOf r.last ≠ none → res.2.cacheMap.Marked r.last

theorem PieceWritten.found {V W : Nat → BitVec 8} {r : Request} {t t₁ t₂ : Transfer} {status : BitVec 32}
    (long : r.readpart < r.size) (first : PieceWritten m (byte s) V size r t (status, t₁))
    (now : W = memcpy V r.position t.buffer r.buffer r.piece)
    (done : WrittenBy (byte s) W size r.next { t₁ with nBytes := 0 } r.next.size t₂)
    (marked : t₂.cacheMap.Marked r.next.last) :
    PagesWritten (byte s) V size r t (Status.success.code, t₂) := by
  have step := Advanced.next long
  have whole : r.readpart + r.next.size = r.size := (Nat.add_comm ..).trans step.size
  have unread : t₁.buffer = t.buffer := first.buffer
  constructor
  · show succeeded Status.success.code = true
    decide
  · exact (first.grown.mono fun _ _ => trivial).trans done.rewritten.grown
  · intro i below
    rw [done.view i below, now, unread, Request.piece_long long, step.position, step.buffer, ← whole]
    exact congrFun memcpy_memcpy i
  · intro _
    exact step.last_eq ▸ marked

/-- The first piece, some of the rest into the cache, and a transfer that begins with another page. -/
theorem PieceWritten.again {V W X : Nat → BitVec 8} {r r' : Request} {t t₁ t₂ : Transfer} {status : BitVec 32} {n : Nat}
    {res : BitVec 32 × Transfer} (long : r.readpart < r.size)
    (first : PieceWritten m (byte s) V size r t (status, t₁))
    (now : W = memcpy V r.position t.buffer r.buffer r.piece) (advanced : Advanced r.next r' n)
    (part : WrittenBy (byte s) W size r.next { t₁ with nBytes := 0 } n t₂)
    (next : X = memcpy W r.next.position t₁.buffer r.next.buffer n)
    (rest : PagesWritten (byte s) X size r' t₂ res) : PagesWritten (byte s) V size r t res := by
  have step := Advanced.next long
  have unread : t₁.buffer = t.buffer := first.buffer
  have size_eq : r.readpart + (n + r'.size) = r.size := by
    have := advanced.size
    have := step.size
    omega
  have same_last : r'.last = r.last := advanced.last_eq.trans step.last_eq
  have grown : Grown (fun _ => True) t.cacheMap t₂.cacheMap :=
    (first.grown.mono fun _ _ => trivial).trans part.rewritten.grown
  constructor
  · exact rest.status
  · exact grown.trans rest.grown
  · intro i below
    have unread₂ : t₂.buffer = t₁.buffer := part.buffer
    rw [rest.view i below, next, now, unread₂, unread, Request.piece_long long, ← size_eq, ← memcpy_memcpy,
      ← memcpy_memcpy, ← step.position, ← step.buffer, ← advanced.position, ← advanced.buffer]
  · intro copied
    rw [← same_last] at copied ⊢
    exact rest.marked fun missing => copied (grown.missing _ missing)

/-- The first piece takes one of the slots that there are for the pages without a copy. -/
theorem first_written {r : Request} {t t₁ : Transfer} {status : BitVec 32} {tempPage : Buffer} {V : Nat → BitVec 8}
    (same : SameClusters m t.cacheMap) (serves : Serves cb byte m.clusterSize size) (divided : m.Divided)
    (agrees : ∀ i, i < size → t.cacheMap.view (byte s) i = V i) (missing : t.cacheMap.copyOf r.pageNumber = none)
    (sound : t.cacheMap.used ≤ t.cacheMap.cachedPages)
    (fetchable : ∀ p, r.pageNumber ≤ p → p ≤ r.last → t.cacheMap.copyOf p = none → Fetchable k cb m size p)
    (room : Room k t.cacheMap (t.cacheMap.absentPages r.pageNumber r.last))
    (piece : writePiece k cb s r tempPage t = (status, t₁)) :
    PieceWritten m (byte s) V size r t (status, t₁) ∧
      Room k t₁.cacheMap (t.cacheMap.absentPages r.pageNumber r.last - 1) := by
  have some_absent := absentPages_lt (Nat.lt_succ_self _) r.page_le_last missing fun p _ gone => gone
  have one_less : t.cacheMap.absentPages r.pageNumber r.last - 1 + 1 =
    t.cacheMap.absentPages r.pageNumber r.last := by omega
  have written := writePiece_spec same serves divided agrees missing sound
    (fetchable _ (Nat.le_refl _) r.page_le_last missing) (one_less.symm ▸ room) tempPage
  rwa [piece] at written

theorem ccpActualWrite_spec (serves : Serves cb byte m.clusterSize size) (divided : m.Divided) {r : Request}
    {t : Transfer} {res : BitVec 32 × Transfer} (same : SameClusters m t.cacheMap)
    (missing : t.cacheMap.copyOf r.pageNumber = none) (sound : t.cacheMap.used ≤ t.cacheMap.cachedPages)
    (small : r.size ≤ 2 ^ 31)
    (fetchable : ∀ p, r.pageNumber ≤ p → p ≤ r.last → t.cacheMap.copyOf p = none → Fetchable k cb m size p)
    (room : Room k t.cacheMap (t.cacheMap.absentPages r.pageNumber r.last))
    (ends : ccpActualWrite k cb s r t = some res) :
    ∀ V : Nat → BitVec 8, (∀ i, i < size → t.cacheMap.view (byte s) i = V i) →
      PagesWritten (byte s) V size r t res := by
  unfold ccpActualWrite at ends
  fun_induction ccpActual k (writePiece k cb s) true r t with
  | case1 => cases ends
  | case2 r t tempPage allocated status t₁ piece more found absent ih =>
    intro V agrees
    have long := (Request.more_iff small).mp more
    have step := Advanced.next long
    obtain ⟨first, left⟩ := first_written same serves divided agrees missing sound fetchable room piece
    have search : Found r.next t₁.cacheMap _ _ found := repeatRead_write r.next { t₁ with nBytes := 0 } _ first.view
    obtain ⟨n, advanced, copied, gone, part⟩ := search.stopped absent
    generalize found.2.1 = r', found.2.2 = t₂ at *
    have later : r.pageNumber < r'.pageNumber := Nat.lt_of_lt_of_le (Nat.lt_succ_self _) advanced.page_le
    have same_last : r'.last = r.last := advanced.last_eq.trans step.last_eq
    have earlier : ∀ p, r'.pageNumber ≤ p → t₂.cacheMap.copyOf p = none → t.cacheMap.copyOf p = none := by
      intro p above none
      exact first.grown.missing p (part.rewritten.grown.missing p none)
    refine first.again long rfl advanced part rfl (ih ?_ ?_ ?_ ?_ ?_ ?_ ends _ part.view)
    · exact (same.grown first.grown).grown part.rewritten.grown
    · exact part.rewritten.absent _ gone
    · exact part.rewritten.grown.sound (first.grown.sound sound)
    · show r'.size ≤ 2 ^ 31
      have := step.size
      have := advanced.size
      omega
    · intro p above under none
      exact fetchable p (Nat.le_trans (Nat.le_of_lt later) above) (same_last ▸ under) (earlier p above none)
    · apply (part.rewritten.room left).mono
      have fewer := absentPages_lt later r.page_le_last missing earlier
      show t₂.cacheMap.absentPages r'.pageNumber r'.last ≤ _
      rw [same_last]
      omega
  | case3 r t tempPage allocated status t₁ piece more found present =>
    intro V agrees
    cases Option.some.inj ends
    have long := (Request.more_iff small).mp more
    obtain ⟨first, left⟩ := first_written same serves divided agrees missing sound fetchable room piece
    have search : Found r.next t₁.cacheMap _ _ found := repeatRead_write r.next { t₁ with nBytes := 0 } _ first.view
    obtain ⟨code, copied, done⟩ := search.whole present
    rw [code]
    exact first.found long rfl done.1 done.2
  | case4 r t tempPage allocated status t₁ piece short =>
    intro V agrees
    cases Option.some.inj ends
    obtain ⟨first, left⟩ := first_written same serves divided agrees missing sound fetchable room piece
    have within : r.size ≤ r.readpart := Nat.le_of_not_gt (mt (Request.more_iff small).mpr short)
    refine ⟨first.status, first.grown.mono fun _ _ => trivial, ?_, ?_⟩
    · rw [← Request.piece_short within]
      exact first.view
    · rw [Request.last_of_short within]
      exact fun copied => absurd missing copied

/-- A write that meets none of the cache's slips: each page without a copy is read without an error and kept in the
cache, which has room for it, and a write past the cache begins with a page that has no copy. -/
structure WriteKept (k : Resources) (cb : Callbacks σ) (size : Nat) (file : File) (r : Request) : Prop where
  fetchable : ∀ p, r.pageNumber ≤ p → p ≤ r.last → file.cacheMap.copyOf p = none →
    Fetchable k cb file.cacheMap size p
  room : Room k file.cacheMap (file.cacheMap.absentPages r.pageNumber r.last)
  through : file.writeThrough = true → file.cacheMap.copyOf r.pageNumber = none

/-- A write of one page that is told to have failed before it changed anything. -/
structure WriteRefused (k : Resources) (cb : Callbacks σ) (file : File) (r : Request) : Prop where
  only : r.last = r.pageNumber
  fetched : file.cacheMap.copyOf r.pageNumber = none ∨ file.writeThrough = true
  fails : succeeded (pageStatus k cb file.cacheMap.clustersPerPage r.pageNumber) = false

structure WriteSafe (checked : Bool) (k : Resources) (cb : Callbacks σ) (size : Nat) (file : File) (r : Request) :
    Prop where
  pages : WriteKept k cb size file r ∨ WriteRefused k cb file r
  small : checked = true ∨ r.size ≤ 2 ^ 31

/-- What a write of the cache does: the file that the cache shows gets the bytes of a write that succeeds. -/
structure FileWritten (m : CacheMap) (disk V : Nat → BitVec 8) (size : Nat) (r : Request) (b : Buffer)
    (res : BitVec 32 × Transfer) : Prop where
  grown : Grown (fun _ => True) m res.2.cacheMap
  view : ∀ i, i < size → res.2.cacheMap.view disk i =
    if succeeded res.1 = true then memcpy V r.position b r.buffer r.size i else V i
  marked : succeeded res.1 = true → m.copyOf r.last ≠ none → res.2.cacheMap.Marked r.last

theorem FileWritten.rebuilt {disk V : Nat → BitVec 8} {r : Request} {b : Buffer} {res : BitVec 32 × Transfer}
    {status : BitVec 32} (written : FileWritten m disk V size r b res) (told : succeeded status = succeeded res.1) :
    FileWritten m disk V size r b (status, { res.2 with cacheMap := countRebuild res.2.cacheMap }) := by
  refine ⟨written.grown.trans (countRebuild_grown _ _), ?_, ?_⟩
  · rw [countRebuild_view, told]
    exact written.view
  · intro succeeds copied
    exact (countRebuild_grown res.2.cacheMap fun _ => True).marked _ (written.marked (told ▸ succeeds) copied)

theorem Request.not_more {r : Request} (only : r.last = r.pageNumber) : ¬ r.More := by
  intro more
  have left : 0 < r.size - r.readpart := more.1
  have above := Request.last_of_long (r := r) (by omega)
  omega

theorem ccpActualWrite_refused {r : Request} {t : Transfer} {res : BitVec 32 × Transfer}
    (only : r.last = r.pageNumber)
    (fails : succeeded (pageStatus k cb t.cacheMap.clustersPerPage r.pageNumber) = false)
    (ends : ccpActualWrite k cb s r t = some res) : res.2 = t ∧ succeeded res.1 = false := by
  unfold ccpActualWrite at ends
  fun_induction ccpActual k (writePiece k cb s) true r t with
  | case1 => cases ends
  | case2 r t tempPage allocated status t₁ piece more => exact absurd more (Request.not_more only)
  | case3 r t tempPage allocated status t₁ piece more => exact absurd more (Request.not_more only)
  | case4 r t tempPage allocated status t₁ piece short =>
    cases Option.some.inj ends
    have told := ccpActualReadPage_status k cb s t.cacheMap r.pageNumber tempPage
    simp only [writePiece, told, fails, Bool.false_eq_true, if_false, Prod.mk.injEq] at piece
    obtain ⟨rfl, rfl⟩ := piece
    exact ⟨rfl, fails⟩

theorem told_cached (status : BitVec 32) :
    succeeded (if succeeded status = true then Status.cached.code else status) = succeeded status := by
  have cached : succeeded Status.cached.code = true := by decide
  cases told : succeeded status with
  | true => simp [cached]
  | false => simp [told]

theorem FileWritten.of_pages {V : Nat → BitVec 8} {file : File} {r : Request} {t : Transfer}
    {res : BitVec 32 × Transfer} (kept : t.cacheMap = file.cacheMap)
    (written : PagesWritten (byte s) V size r t res) : FileWritten file.cacheMap (byte s) V size r t.buffer res where
  grown := kept ▸ written.grown
  view i below := by
    rw [if_pos written.status]
    exact written.view i below
  marked _ copied := written.marked (kept ▸ copied)

theorem FileWritten.of_refused {V : Nat → BitVec 8} {file : File} {r : Request} {b : Buffer}
    {res : BitVec 32 × Transfer} (agrees : ∀ i, i < size → file.cacheMap.view (byte s) i = V i)
    (kept : res.2.cacheMap = file.cacheMap) (fails : succeeded res.1 = false) :
    FileWritten file.cacheMap (byte s) V size r b res where
  grown := kept ▸ .refl _ _
  view i below := by
    rw [if_neg (by simp [fails]), kept]
    exact agrees i below
  marked succeeds := absurd (fails.symm.trans succeeds) (by decide)

/-- What is left of a write when the search has come to a page that is not in the cache. -/
theorem FileWritten.of_rest {V : Nat → BitVec 8} {file : File} {r r' : Request} {t t' : Transfer}
    {res : BitVec 32 × Transfer} {n : Nat} (kept : t.cacheMap = file.cacheMap) (advanced : Advanced r r' n)
    (part : WrittenBy (byte s) V size r t n t')
    (rest : PagesWritten (byte s) (memcpy V r.position t.buffer r.buffer n) size r' t' res) :
    FileWritten file.cacheMap (byte s) V size r t.buffer res where
  grown := kept ▸ part.rewritten.grown.trans rest.grown
  view i below := by
    rw [if_pos rest.status, rest.view i below, part.buffer, advanced.position, advanced.buffer, ← advanced.size,
      Nat.add_comm r'.size]
    exact congrFun memcpy_memcpy i
  marked _ copied := by
    have same_last : r'.last = r.last := advanced.last_eq
    rw [← same_last] at copied ⊢
    exact rest.marked fun missing => copied (kept ▸ part.rewritten.grown.missing _ missing)

theorem ccCacheWriteFile_spec {checked : Bool} {V : Nat → BitVec 8} {file : File} {offset length : BitVec 32}
    {b : Buffer} {nBytesWritten : BitVec 32} {res : BitVec 32 × Transfer}
    (serves : Serves cb byte file.cacheMap.clusterSize size) (divided : file.cacheMap.Divided)
    (sound : file.cacheMap.used ≤ file.cacheMap.cachedPages)
    (agrees : ∀ i, i < size → file.cacheMap.view (byte s) i = V i)
    (safe : WriteSafe checked k cb size file (Request.start offset length))
    (ends : ccCacheWriteFile checked k cb s file offset b length nBytesWritten = some res) :
    FileWritten file.cacheMap (byte s) V size (Request.start offset length) b res := by
  unfold ccCacheWriteFile at ends
  generalize Request.start offset length = r at *
  dsimp only at ends
  split at ends
  · cases ends
  · rename_i asserted
    have small := small_of_asserted asserted safe.small
    split at ends
    · rename_i through
      cases safe.pages with
      | inl kept =>
        have written := ccpActualWrite_spec serves divided (.refl _) (kept.through through) sound small kept.fetchable
          kept.room ends V agrees
        exact .of_pages rfl written
      | inr refused =>
        obtain ⟨same, fails⟩ := ccpActualWrite_refused
          (t := { cacheMap := file.cacheMap, buffer := b, nBytes := nBytesWritten }) refused.only refused.fails ends
        exact .of_refused agrees (congrArg Transfer.cacheMap same) fails
    · rename_i cached
      have search := repeatRead_write r { cacheMap := file.cacheMap, buffer := b, nBytes := 0 } V agrees
      have reached : ccpFindAndReadWrite true r { cacheMap := file.cacheMap, buffer := b, nBytes := nBytesWritten } =
        repeatRead true r { cacheMap := file.cacheMap, buffer := b, nBytes := 0 } := rfl
      rw [reached] at ends
      generalize repeatRead true r { cacheMap := file.cacheMap, buffer := b, nBytes := 0 } = outcome at search ends
      cases search with
      | @all _ t' copied done =>
        have different : ¬ Status.success.code = Status.notFound.code := by decide
        have success : succeeded Status.success.code = true := by decide
        simp only [afterSearch, if_neg different, Option.bind_eq_bind, Option.bind_some, Option.some.injEq] at ends
        cases ends
        have written : PagesWritten (byte s) V size r { cacheMap := file.cacheMap, buffer := b, nBytes := 0 }
            (Status.success.code, t') := ⟨success, done.1.rewritten.grown, done.1.view, fun _ => done.2⟩
        exact (FileWritten.of_pages rfl written).rebuilt rfl
      | @missing r' t' n advanced copied absent part =>
        simp only [afterSearch, if_true, Option.bind_eq_bind, Option.bind_map, Option.bind_eq_some_iff,
          Option.some.injEq, Function.comp_apply] at ends
        obtain ⟨res', ends, rfl⟩ := ends
        apply FileWritten.rebuilt _ (told_cached _)
        have same_last : r'.last = r.last := advanced.last_eq
        have gone := part.rewritten.missing_iff
        cases safe.pages with
        | inl kept =>
          apply FileWritten.of_rest rfl advanced part
          apply ccpActualWrite_spec (r := r') (t := t') serves divided ((SameClusters.refl _).grown part.rewritten.grown)
            (part.rewritten.absent _ absent) (part.rewritten.grown.sound sound) _ _ _ ends _ part.view
          · have := advanced.size
            omega
          · intro p above under none
            exact kept.fetchable p (Nat.le_trans advanced.page_le above) (same_last ▸ under) ((gone p).mp none)
          · apply (part.rewritten.room kept.room).mono
            rw [same_last]
            exact absentPages_mono advanced.page_le fun p _ none => (gone p).mp none
        | inr refused =>
          -- A request of one page, which the search did not find, so that nothing is done yet.
          have here : ¬ r.pageNumber < r'.pageNumber := by
            have := r'.page_le_last
            have := refused.only
            omega
          have none_done : n = 0 := Nat.eq_zero_of_not_pos (mt advanced.page here)
          have page : r'.pageNumber = r.pageNumber := Nat.le_antisymm (Nat.le_of_not_lt here) advanced.page_le
          have fails : succeeded (pageStatus k cb t'.cacheMap.clustersPerPage r'.pageNumber) = false := by
            rw [part.rewritten.grown.clustersPerPage, page]
            exact refused.fails
          obtain ⟨same, fails⟩ := ccpActualWrite_refused (r := r') (t := t') (by rw [same_last, page, refused.only])
            fails ends
          constructor
          · exact congrArg Transfer.cacheMap same ▸ part.rewritten.grown
          · intro i below
            have shown := part.view i below
            rw [none_done, memcpy_zero] at shown
            rw [if_neg (by simp [fails]), same]
            exact shown
          · exact fun succeeds => absurd (fails.symm.trans succeeds) (by decide)

end Store

end Gr8os.Cc
