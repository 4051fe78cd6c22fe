import Gr8os.Cc.Writes
import Gr8os.Cc.Events

/-! Which failures of the driver's routines a call of the cache reports, and which pages it takes to be clean. -/
namespace Gr8os.Cc

open Bytes Slots

/-- What a routine of the driver answered is a success, or tells a read where the file ends. -/
def CallbackOk : CacheEvent → Prop
  | .readCluster _ status => succeeded status = true ∨ status = Status.endOfFile.code
  | .writeCluster _ _ status => succeeded status = true
  | _ => True

def CachedPage.dirty (page : CachedPage) : Bool := page.cached && page.modified

/-- A slot loses the mark of its page. -/
def Cleaned (m m' : CacheMap) (slot : Nat) (page : CachedPage) : Prop :=
  m.pageCacheMap[slot]? = some page ∧ page.dirty = true ∧
    ∀ page', m'.pageCacheMap[slot]? = some page' → page'.dirty = false

/-- The clusters of the page make up a page, and each of them is written. -/
def SlotWritten (m : CacheMap) (events : List CacheEvent) (slot : Nat) (page : CachedPage) : Prop :=
  4096 ≤ m.clustersPerPage * m.clusterSize ∧ ∀ i < m.clustersPerPage, ∃ status, succeeded status = true ∧
    CacheEvent.writeCluster slot (page.pageNumber * m.clustersPerPage + i) status ∈ events

structure ErrorsReported (m m' : CacheMap) (status : BitVec 32) (events : List CacheEvent) : Prop where
  status : succeeded status = true → ∀ e ∈ events, CallbackOk e
  marks : ∀ slot page, Cleaned m m' slot page → SlotWritten m events slot page

section Reports

variable {σ : Type} {k : Resources} {cb : Callbacks σ} {writeOperation : Bool} {r : Request} {t : Transfer}

/-- No cluster of the page that is read fails. -/
def PageTold (cb : Callbacks σ) (clustersPerPage p : Nat) : Prop :=
  ∀ read, cb.actualRead = some read → ∀ i < clustersPerPage,
    (∀ j < i, read.status (p * clustersPerPage + j) ≠ Status.endOfFile.code ∧
      read.status (p * clustersPerPage + j) ≠ Status.noMediaInDevice.code) →
    succeeded (read.status (p * clustersPerPage + i)) = true ∨
      read.status (p * clustersPerPage + i) = Status.endOfFile.code

theorem clusterReads_ok_iff (status : Nat → BitVec 32) (first n i : Nat) :
    (∀ e ∈ clusterReads status first (List.range' i n), CallbackOk e) ↔
      ∀ c, i ≤ c → c < i + n →
        (∀ j, i ≤ j → j < c → status (first + j) ≠ Status.endOfFile.code ∧
          status (first + j) ≠ Status.noMediaInDevice.code) →
        succeeded (status (first + c)) = true ∨ status (first + c) = Status.endOfFile.code := by
  induction n generalizing i with
  | zero => exact ⟨fun _ c above below => absurd above (by omega), fun _ e member => absurd member List.not_mem_nil⟩
  | succ n ih =>
    rw [List.range'_succ, clusterReads, List.forall_mem_cons]
    by_cases stops : status (first + i) = Status.endOfFile.code ∨ status (first + i) = Status.noMediaInDevice.code
    · rw [if_pos stops]
      constructor
      · rintro ⟨ok, _⟩ c above below before
        rcases Nat.eq_or_lt_of_le above with rfl | later
        · exact ok
        · have goes_on := before i (Nat.le_refl _) later
          exact absurd stops (not_or.mpr goes_on)
      · intro all
        refine ⟨all i (Nat.le_refl _) (by omega) fun j above below => absurd above (by omega), ?_⟩
        exact fun e member => absurd member List.not_mem_nil
    · rw [if_neg stops, ih (i + 1)]
      constructor
      · rintro ⟨ok, rest⟩ c above below before
        rcases Nat.eq_or_lt_of_le above with rfl | later
        · exact ok
        · exact rest c later (by omega) fun j above => before j (by omega)
      · intro all
        refine ⟨all i (Nat.le_refl _) (by omega) fun j above below => absurd above (by omega), ?_⟩
        intro c above below before
        apply all c (by omega) (by omega)
        intro j from_here below'
        rcases Nat.eq_or_lt_of_le from_here with rfl | later
        · exact not_or.mp stops
        · exact before j later below'

theorem pageReadEvents_ok_iff (cb : Callbacks σ) (clustersPerPage p : Nat) :
    (∀ e ∈ pageReadEvents cb clustersPerPage p, CallbackOk e) ↔ PageTold cb clustersPerPage p := by
  unfold pageReadEvents PageTold
  cases cb.actualRead with
  | none => exact ⟨fun _ read none => (by cases none), fun _ e member => absurd member List.not_mem_nil⟩
  | some read =>
    simp only [Option.some.injEq, forall_eq']
    rw [List.range_eq_range', clusterReads_ok_iff]
    simp only [Nat.zero_add, Nat.zero_le, true_implies]

theorem repeatReadEvents_ok (writeOperation : Bool) (r : Request) (t : Transfer) :
    ∀ e ∈ repeatReadEvents writeOperation r t, CallbackOk e := by
  fun_induction repeatReadEvents writeOperation r t with
  | case1 => exact fun e member => absurd member List.not_mem_nil
  | case2 r t i found short =>
    intro e member
    rw [List.mem_singleton.mp member]
    trivial
  | case3 r t i found page long ih =>
    intro e member
    rcases List.mem_cons.mp member with rfl | later
    · trivial
    · exact ih e later

theorem pieceEvents_ok_iff (k : Resources) (cb : Callbacks σ) (r : Request) (t : Transfer) :
    (∀ e ∈ pieceEvents k cb r t, CallbackOk e) ↔ PageTold cb t.cacheMap.clustersPerPage r.pageNumber := by
  rw [← pageReadEvents_ok_iff]
  unfold pieceEvents
  split
  · rw [List.forall_mem_append]
    refine and_iff_left fun e member => ?_
    rw [List.mem_singleton.mp member]
    trivial
  · rw [List.append_nil]

/-- The status of a piece of a transfer is that of its page. -/
def PieceTells (k : Resources) (cb : Callbacks σ) (clustersPerPage : Nat)
    (piece : Request → Buffer → Transfer → BitVec 32 × Transfer) : Prop :=
  ∀ r b t, t.cacheMap.clustersPerPage = clustersPerPage → (piece r b t).1 = pageStatus k cb clustersPerPage r.pageNumber

/-- What a call returns, and when no read of a cluster failed in it. -/
structure Ended (k : Resources) (cb : Callbacks σ) (m : CacheMap) (fetch : Bool) (r : Request) (status : BitVec 32)
    (events : List CacheEvent) : Prop where
  status : succeeded status = true ↔ ∀ p, endsAt m fetch r = some p → pageReads k cb m p = true
  events : (∀ e ∈ events, CallbackOk e) ↔ ∀ p ∈ visits m fetch r, PageTold cb m.clustersPerPage p

theorem Ended.congr {m m' : CacheMap} {fetch : Bool} {status : BitVec 32} {events : List CacheEvent}
    (ended : Ended k cb m' fetch r status events) (clusters : m'.clustersPerPage = m.clustersPerPage)
    (visited : visits m' fetch r = visits m fetch r) (last : endsAt m' fetch r = endsAt m fetch r) :
    Ended k cb m fetch r status events where
  status := by
    have told := ended.status
    unfold pageReads at told ⊢
    rwa [last, clusters] at told
  events := by
    have told := ended.events
    rwa [visited, clusters] at told

theorem Ended.first {m : CacheMap} {status : BitVec 32} {events : List CacheEvent} (more : r.More)
    (clusters : t.cacheMap.clustersPerPage = m.clustersPerPage) (rest : Ended k cb m false r.next status events) :
    Ended k cb m true r status (pieceEvents k cb r t ++ events) where
  status := by
    rw [endsAt_fetch, if_pos more]
    exact rest.status
  events := by
    rw [List.forall_mem_append, visits_fetch, if_pos more, List.forall_mem_cons, pieceEvents_ok_iff, rest.events, clusters]

/-- A search that stops at a page without a copy, and what follows it. -/
theorem Ended.search {status : BitVec 32} {events : List CacheEvent}
    (missing : (ccpFindAndReadWrite writeOperation r t).1 = Status.notFound.code)
    (rest : Ended k cb (ccpFindAndReadWrite writeOperation r t).2.2.cacheMap true
      (ccpFindAndReadWrite writeOperation r t).2.1 status events) :
    Ended k cb t.cacheMap false r status (findEvents writeOperation r t ++ events) := by
  have stopped : Stopped t.cacheMap r (ccpFindAndReadWrite writeOperation r t) :=
    repeatRead_stopped writeOperation r { t with nBytes := 0 }
  have searched := repeatRead_endsAt writeOperation r { t with nBytes := 0 }
  have last : endsAt t.cacheMap false r = endsAt t.cacheMap true (ccpFindAndReadWrite writeOperation r t).2.1 := by
    have different : ¬Status.notFound.code = Status.success.code := by decide
    rcases searched with ⟨told, _⟩ | ⟨_, last⟩
    · exact absurd (missing.symm.trans told) different
    · exact last
  have ended : Ended k cb t.cacheMap false r status events := by
    have told := rest.status
    have ok := rest.events
    rw [endsAt_congr fun p _ => stopped.alike.copyOf p, ← last] at told
    rw [visits_congr fun p _ => stopped.alike.copyOf p, ← stopped.missing missing, stopped.alike.clustersPerPage] at ok
    unfold pageReads at told
    rw [stopped.alike.clustersPerPage] at told
    exact ⟨told, ok⟩
  refine ⟨ended.status, ?_⟩
  rw [List.forall_mem_append, ended.events]
  exact and_iff_right (repeatReadEvents_ok _ _ _)

theorem Ended.found (present : (ccpFindAndReadWrite writeOperation r t).1 ≠ Status.notFound.code) :
    Ended k cb t.cacheMap false r (ccpFindAndReadWrite writeOperation r t).1 (findEvents writeOperation r t) := by
  have stopped : Stopped t.cacheMap r (ccpFindAndReadWrite writeOperation r t) :=
    repeatRead_stopped writeOperation r { t with nBytes := 0 }
  rcases repeatRead_endsAt writeOperation r { t with nBytes := 0 } with ⟨told, last⟩ | ⟨told, _⟩
  · have last : endsAt t.cacheMap false r = none := last
    have told : (ccpFindAndReadWrite writeOperation r t).1 = Status.success.code := told
    have succeeds : succeeded Status.success.code = true := by decide
    constructor
    · rw [told, last]
      exact ⟨fun _ p none => (by cases none), fun _ => succeeds⟩
    · rw [stopped.found present]
      exact ⟨fun _ p member => absurd member List.not_mem_nil, fun _ => repeatReadEvents_ok _ _ _⟩
  · exact absurd told present

theorem ccpActual_ended {f : Nat → Bool} {piece : Request → Buffer → Transfer → BitVec 32 × Transfer}
    {clustersPerPage : Nat} {res : BitVec 32 × Transfer} (caches : PieceCaches k f clustersPerPage piece)
    (tells : PieceTells k cb clustersPerPage piece) (clusters : t.cacheMap.clustersPerPage = clustersPerPage)
    (ends : ccpActual k piece writeOperation r t = some res) :
    Ended k cb t.cacheMap true r res.1 (ccpActualEvents k cb piece writeOperation r t) := by
  fun_induction ccpActual k piece writeOperation r t with
  | case1 => contradiction
  | case2 r t tempPage allocated status t₁ first more found missing ih =>
    have after : (piece r tempPage t).2 = t₁ := by rw [first]
    have kept : t₁.cacheMap.clustersPerPage = clustersPerPage := after ▸ caches.clusters clusters
    have stopped : Stopped t₁.cacheMap r.next found := repeatRead_stopped writeOperation r.next { t₁ with nBytes := 0 }
    have rest := ih (stopped.alike.clustersPerPage.trans kept) ends
    rw [ccpActualEvents, allocated]
    simp only [after, dif_pos more]
    rw [if_pos missing]
    exact .first more rfl ((Ended.search missing rest).congr (kept.trans clusters.symm)
      (after ▸ caches.visits_next clusters) (after ▸ endsAt_congr fun _ above => caches.later clusters above))
  | case3 r t tempPage allocated status t₁ first more found present =>
    cases Option.some.inj ends
    have after : (piece r tempPage t).2 = t₁ := by rw [first]
    have kept : t₁.cacheMap.clustersPerPage = clustersPerPage := after ▸ caches.clusters clusters
    rw [ccpActualEvents, allocated]
    simp only [after, dif_pos more]
    rw [if_neg present, List.append_nil]
    exact .first more rfl ((Ended.found present).congr (kept.trans clusters.symm)
      (after ▸ caches.visits_next clusters) (after ▸ endsAt_congr fun _ above => caches.later clusters above))
  | case4 r t tempPage allocated status t₁ first short =>
    cases Option.some.inj ends
    have told : status = pageStatus k cb clustersPerPage r.pageNumber := by
      rw [← tells r tempPage t clusters, first]
    rw [ccpActualEvents, allocated]
    simp only [dif_neg short, List.append_nil]
    constructor
    · rw [endsAt_fetch, if_neg short, told, ← clusters]
      exact ⟨fun reads p last => Option.some.inj last ▸ reads, fun all => all _ rfl⟩
    · rw [visits_fetch, if_neg short, pieceEvents_ok_iff, List.forall_mem_singleton]

theorem afterSearch_ended {f : Nat → Bool} {piece : Request → Buffer → Transfer → BitVec 32 × Transfer}
    {clustersPerPage : Nat} {res : BitVec 32 × Transfer} (caches : PieceCaches k f clustersPerPage piece)
    (tells : PieceTells k cb clustersPerPage piece) (clusters : t.cacheMap.clustersPerPage = clustersPerPage)
    (ends : afterSearch (ccpActual k piece writeOperation) (ccpFindAndReadWrite writeOperation r t) = some res) :
    Ended k cb t.cacheMap false r res.1 (afterSearchEvents k cb piece writeOperation r t) := by
  have stopped : Stopped t.cacheMap r (ccpFindAndReadWrite writeOperation r t) :=
    repeatRead_stopped writeOperation r { t with nBytes := 0 }
  unfold afterSearch at ends
  unfold afterSearchEvents
  dsimp only
  by_cases missing : (ccpFindAndReadWrite writeOperation r t).1 = Status.notFound.code
  · simp only [missing, if_true, Option.bind_eq_bind, Option.bind_map, Option.bind_eq_some_iff, Option.some.injEq,
      Function.comp_apply] at ends
    obtain ⟨res', transferred, rfl⟩ := ends
    have rest := ccpActual_ended caches tells (stopped.alike.clustersPerPage.trans clusters) transferred
    rw [if_pos missing]
    have ended := Ended.search missing rest
    refine ⟨?_, ended.events⟩
    show succeeded (if succeeded res'.1 = true then Status.cached.code else res'.1) = true ↔ _
    rw [told_cached]
    exact ended.status
  · simp only [if_neg missing, Option.bind_eq_bind, Option.bind_some, Option.some.injEq] at ends
    cases ends
    rw [if_neg missing, List.append_nil]
    exact .found missing

end Reports

/-! Reads and writes leave the marks of the pages that have one. -/

def MarksKept (m m' : CacheMap) : Prop :=
  ∀ (slot : Nat) (page : CachedPage), m.pageCacheMap[slot]? = some page → page.dirty = true →
    ∃ page' : CachedPage, m'.pageCacheMap[slot]? = some page' ∧ page'.dirty = true

theorem MarksKept.refl (m : CacheMap) : MarksKept m m := fun _ page here dirty => ⟨page, here, dirty⟩

theorem MarksKept.trans {m m' m'' : CacheMap} (first : MarksKept m m') (second : MarksKept m' m'') : MarksKept m m'' := by
  intro slot page here dirty
  obtain ⟨page', here', dirty'⟩ := first slot page here dirty
  exact second slot page' here' dirty'

theorem put_marks {m : CacheMap} {i : Nat} {old page : CachedPage} (here : m.pageCacheMap[i]? = some old)
    (keeps : old.dirty = true → page.dirty = true) : MarksKept m (m.put i page) := by
  intro slot page' here' dirty
  by_cases same : slot = i
  · subst same
    rw [here] at here'
    cases here'
    have inside : slot < m.pageCacheMap.length := (List.getElem?_eq_some_iff.mp here).1
    exact ⟨page, List.getElem?_set_self inside, keeps dirty⟩
  · exact ⟨page', (List.getElem?_set_ne (Ne.symm same)).trans here', dirty⟩

theorem ccpCacheFilePage_marks (k : Resources) (m : CacheMap) (p : Nat) (b : Buffer) :
    MarksKept m (ccpCacheFilePage k m p b).2 := by
  have grown : MarksKept m (ccpGrowCacheMap k m) := by
    rw [ccpGrowCacheMap_eq]
    intro slot page here dirty
    have inside : slot < m.pageCacheMap.length := (List.getElem?_eq_some_iff.mp here).1
    exact ⟨page, (List.getElem?_append_left inside).trans here, dirty⟩
  refine grown.trans ?_
  unfold ccpCacheFilePage
  generalize ccpGrowCacheMap k m = m₁
  dsimp only
  cases free : m₁.pageCacheMap.findIdx? (fun page => !page.cached) with
  | none => exact .refl _
  | some i =>
    obtain ⟨slot, here, empty⟩ := get_of_findIdx? free
    have clean : slot.dirty = true → False := by
      intro dirty
      unfold CachedPage.dirty at dirty
      simp only [Bool.not_eq_true'] at empty
      simp [empty] at dirty
    dsimp only
    split <;> exact put_marks here fun dirty => (clean dirty).elim

section Marks

variable {σ : Type} {writeOperation : Bool} {r : Request} {t : Transfer}

theorem copyPiece_marks {i n : Nat} {page : CachedPage} (here : t.cacheMap.pageCacheMap[i]? = some page) :
    MarksKept t.cacheMap (copyPiece writeOperation r i page n t).cacheMap := by
  cases writeOperation with
  | true => exact put_marks here fun dirty => dirty
  | false => exact .refl _

theorem markModified_marks (i : Nat) : MarksKept t.cacheMap (markModified writeOperation i t).cacheMap := by
  cases writeOperation with
  | false => exact .refl _
  | true =>
    show MarksKept t.cacheMap { t.cacheMap with pageCacheMap := t.cacheMap.pageCacheMap.modify i _ }
    cases here : t.cacheMap.pageCacheMap[i]? with
    | none =>
      rw [List.modify_eq_self (List.getElem?_eq_none_iff.mp here)]
      exact .refl _
    | some page =>
      rw [List.modify_eq_set_getElem?, here]
      refine put_marks here fun dirty => ?_
      unfold CachedPage.dirty at dirty ⊢
      simp only [Bool.and_eq_true] at dirty ⊢
      exact ⟨dirty.1, trivial⟩

theorem repeatRead_marks (writeOperation : Bool) (r : Request) (t : Transfer) :
    MarksKept t.cacheMap (repeatRead writeOperation r t).2.2.cacheMap := by
  fun_induction repeatRead writeOperation r t with
  | case1 => exact .refl _
  | case2 r t i found page short =>
    have here : t.cacheMap.pageCacheMap[i]? = some page :=
      (find?_of_findIdx? found).symm.trans (getD_of_findIdx? found)
    exact (copyPiece_marks here).trans (markModified_marks i)
  | case3 r t i found page long ih =>
    have here : t.cacheMap.pageCacheMap[i]? = some page :=
      (find?_of_findIdx? found).symm.trans (getD_of_findIdx? found)
    exact (copyPiece_marks here).trans ih

theorem readPiece_marks (k : Resources) (cb : Callbacks σ) (s : σ) (cache : Bool) (r : Request) (b : Buffer)
    (t : Transfer) : MarksKept t.cacheMap (readPiece k cb s cache r b t).2.cacheMap := by
  unfold readPiece
  dsimp only
  split
  · cases cache with
    | true => exact ccpCacheFilePage_marks _ _ _ _
    | false => exact .refl _
  · exact .refl _

theorem writePiece_marks (k : Resources) (cb : Callbacks σ) (s : σ) (r : Request) (b : Buffer) (t : Transfer) :
    MarksKept t.cacheMap (writePiece k cb s r b t).2.cacheMap := by
  unfold writePiece
  dsimp only
  split
  · exact ccpCacheFilePage_marks _ _ _ _
  · exact .refl _

theorem ccpActual_marks {k : Resources} {piece : Request → Buffer → Transfer → BitVec 32 × Transfer}
    {res : BitVec 32 × Transfer} (keeps : ∀ r b t, MarksKept t.cacheMap (piece r b t).2.cacheMap)
    (ends : ccpActual k piece writeOperation r t = some res) : MarksKept t.cacheMap res.2.cacheMap := by
  fun_induction ccpActual k piece writeOperation r t with
  | case1 => contradiction
  | case2 r t tempPage allocated status t₁ first more found missing ih =>
    have kept := keeps r tempPage t
    rw [first] at kept
    have searched : MarksKept t₁.cacheMap found.2.2.cacheMap :=
      repeatRead_marks writeOperation r.next { t₁ with nBytes := 0 }
    exact (kept.trans searched).trans (ih ends)
  | case3 r t tempPage allocated status t₁ first more found present =>
    cases Option.some.inj ends
    have kept := keeps r tempPage t
    rw [first] at kept
    exact kept.trans (repeatRead_marks writeOperation r.next { t₁ with nBytes := 0 })
  | case4 r t tempPage allocated status t₁ first short =>
    cases Option.some.inj ends
    have kept := keeps r tempPage t
    rwa [first] at kept

theorem afterSearch_marks {k : Resources} {piece : Request → Buffer → Transfer → BitVec 32 × Transfer}
    {res : BitVec 32 × Transfer} (keeps : ∀ r b t, MarksKept t.cacheMap (piece r b t).2.cacheMap)
    (ends : afterSearch (ccpActual k piece writeOperation) (ccpFindAndReadWrite writeOperation r t) = some res) :
    MarksKept t.cacheMap res.2.cacheMap := by
  have searched : MarksKept t.cacheMap (ccpFindAndReadWrite writeOperation r t).2.2.cacheMap :=
    repeatRead_marks writeOperation r { t with nBytes := 0 }
  have counted : ∀ m, MarksKept m (countRebuild m) := by
    intro m
    rw [countRebuild_eq]
    exact fun _ page here dirty => ⟨page, here, dirty⟩
  unfold afterSearch at ends
  by_cases missing : (ccpFindAndReadWrite writeOperation r t).1 = Status.notFound.code
  · simp only [missing, if_true, Option.bind_eq_bind, Option.bind_map, Option.bind_eq_some_iff, Option.some.injEq,
      Function.comp_apply] at ends
    obtain ⟨res', transferred, rfl⟩ := ends
    exact (searched.trans (ccpActual_marks keeps transferred)).trans (counted _)
  · simp only [if_neg missing, Option.bind_eq_bind, Option.bind_some, Option.some.injEq] at ends
    cases ends
    exact searched.trans (counted _)

end Marks

/-! The purge writes its pages in the order of their slots until one of them fails. -/

section Purges

variable {σ : Type} {k : Resources} {cb : Callbacks σ} {m : CacheMap} {page : CachedPage} {pages : List CachedPage}

/-- The clusters of the page make up a page, and the driver writes each of them. -/
def PageWritten (cb : Callbacks σ) (m : CacheMap) (page : CachedPage) : Prop :=
  4096 ≤ m.clustersPerPage * m.clusterSize ∧ ∃ write, cb.actualWrite = some write ∧
    ∀ i < m.clustersPerPage, succeeded (write.status (page.pageNumber * m.clustersPerPage + i)) = true

/-- No dirty page up to the place fails. -/
def Unfailing (k : Resources) (cb : Callbacks σ) (m : CacheMap) (pages : List CachedPage) (i : Nat) : Prop :=
  ∀ page ∈ pages.take (i + 1), page.dirty = true → succeeded (pageWriteStatus k cb m page) = true

theorem unfailing_cons {i : Nat} : Unfailing k cb m (page :: pages) (i + 1) ↔
    (page.dirty = true → succeeded (pageWriteStatus k cb m page) = true) ∧ Unfailing k cb m pages i := by
  unfold Unfailing
  rw [List.take_succ_cons, List.forall_mem_cons]

theorem Unfailing.before {i : Nat} (unfailing : Unfailing k cb m pages i) :
    ∀ page ∈ pages.take i, page.dirty = true → succeeded (pageWriteStatus k cb m page) = true :=
  fun page member => unfailing page (List.take_subset_take_left pages (Nat.le_succ i) member)

theorem mem_pageWriteEvents {slot slot' c : Nat} {status : BitVec 32} :
    CacheEvent.writeCluster slot' c status ∈ pageWriteEvents cb m slot page ↔ slot' = slot ∧
      ∃ write, cb.actualWrite = some write ∧ ∃ i < m.clustersPerPage,
        c = page.pageNumber * m.clustersPerPage + i ∧ status = write.status c := by
  unfold pageWriteEvents
  cases cb.actualWrite with
  | none => simp
  | some write =>
    simp only [List.mem_map, List.mem_range, CacheEvent.writeCluster.injEq, Option.some.injEq, exists_eq_left']
    constructor
    · rintro ⟨i, below, rfl, rfl, rfl⟩
      exact ⟨rfl, i, below, rfl, rfl⟩
    · rintro ⟨rfl, i, below, rfl, rfl⟩
      exact ⟨i, below, rfl, rfl, rfl⟩

theorem purgeEvents_slot {n slot c : Nat} {status : BitVec 32}
    (member : CacheEvent.writeCluster slot c status ∈ purgeEvents k cb m n pages) : n ≤ slot := by
  induction pages generalizing n with
  | nil => exact absurd member List.not_mem_nil
  | cons page pages ih =>
    rw [purgeEvents] at member
    split at member
    · rcases List.mem_append.mp member with here | later
      · exact Nat.le_of_eq (mem_pageWriteEvents.mp here).1.symm
      · split at later
        · exact Nat.le_of_succ_le (ih later)
        · exact absurd later List.not_mem_nil
    · exact Nat.le_of_succ_le (ih member)

theorem SlotWritten.congr {events events' : List CacheEvent} {slot : Nat}
    (same : ∀ c status, CacheEvent.writeCluster slot c status ∈ events' ↔ CacheEvent.writeCluster slot c status ∈ events) :
    SlotWritten m events' slot page ↔ SlotWritten m events slot page := by
  unfold SlotWritten
  simp only [same]

theorem pageWriteEvents_written (slot : Nat) :
    SlotWritten m (pageWriteEvents cb m slot page) slot page ↔ PageWritten cb m page := by
  constructor
  · rintro ⟨whole, written⟩
    have some_cluster : 0 < m.clustersPerPage := by
      apply Nat.pos_of_ne_zero
      intro zero
      rw [zero, Nat.zero_mul] at whole
      omega
    obtain ⟨_, _, member⟩ := written 0 some_cluster
    obtain ⟨_, write, writes, _⟩ := mem_pageWriteEvents.mp member
    refine ⟨whole, write, writes, fun i below => ?_⟩
    obtain ⟨status, succeeds, member⟩ := written i below
    obtain ⟨_, write', writes', _, _, _, rfl⟩ := mem_pageWriteEvents.mp member
    rw [writes] at writes'
    cases writes'
    exact succeeds
  · rintro ⟨whole, write, writes, all⟩
    exact ⟨whole, fun i below => ⟨_, all i below, mem_pageWriteEvents.mpr ⟨rfl, write, writes, i, below, rfl, rfl⟩⟩⟩

/-- A dirty page that the purge comes to is written if the driver writes its clusters. -/
theorem purgeEvents_written {i : Nat} (n : Nat) (here : pages[i]? = some page) (dirty : page.dirty = true)
    (before : ∀ page ∈ pages.take i, page.dirty = true → succeeded (pageWriteStatus k cb m page) = true) :
    SlotWritten m (purgeEvents k cb m n pages) (n + i) page ↔ PageWritten cb m page := by
  induction pages generalizing n i with
  | nil => cases here
  | cons page' pages ih =>
    cases i with
    | zero =>
      cases Option.some.inj here
      have marked : (page.cached && page.modified) = true := dirty
      rw [← @pageWriteEvents_written σ cb]
      apply SlotWritten.congr
      intro c status
      rw [purgeEvents, if_pos marked, List.mem_append, Nat.add_zero]
      refine or_iff_left fun later => ?_
      split at later
      · exact absurd (purgeEvents_slot later) (Nat.not_succ_le_self n)
      · exact absurd later List.not_mem_nil
    | succ i =>
      rw [List.take_succ_cons, List.forall_mem_cons] at before
      rw [← ih (n + 1) here before.2]
      have place : n + 1 + i = n + (i + 1) := by omega
      rw [place]
      apply SlotWritten.congr
      intro c status
      rw [purgeEvents]
      split
      · rename_i first
        rw [if_pos (before.1 first), List.mem_append]
        refine or_iff_right fun here => ?_
        have := (mem_pageWriteEvents.mp here).1
        omega
      · rfl

/-- The purge takes away the mark of a page exactly if no page up to it fails. -/
theorem purgePages_cleaned (s : σ) (status : BitVec 32) {i : Nat} (here : pages[i]? = some page)
    (dirty : page.dirty = true) :
    (∀ page', (purgePages k cb m pages status s).2.1[i]? = some page' → page'.dirty = false) ↔
      Unfailing k cb m pages i := by
  induction pages generalizing i status s with
  | nil => cases here
  | cons first pages ih =>
    rw [purgePages]
    cases i with
    | zero =>
      cases Option.some.inj here
      have marked : (page.cached && page.modified) = true := dirty
      rw [if_pos marked]
      dsimp only
      rw [ccpActualWritePage_status]
      unfold Unfailing
      rw [List.take_succ_cons, List.take_zero, List.forall_mem_singleton]
      split
      · rename_i writes
        refine iff_of_true ?_ fun _ => writes
        intro page' here'
        cases Option.some.inj here'
        exact Bool.and_false _
      · rename_i fails
        refine iff_of_false ?_ fun writes => fails (writes dirty)
        intro clean
        exact absurd (clean page rfl) (by rw [dirty]; decide)
    | succ i =>
      rw [unfailing_cons]
      split
      · rename_i marked
        dsimp only
        rw [ccpActualWritePage_status]
        split
        · rename_i writes
          refine (ih _ _ here).trans (and_iff_right fun _ => writes).symm
        · rename_i fails
          refine iff_of_false ?_ fun writes => fails (writes.1 marked)
          intro clean
          exact absurd (clean page here) (by rw [dirty]; decide)
      · rename_i unmarked
        exact (ih _ _ here).trans (and_iff_right fun marked => absurd marked unmarked).symm

/-- The purge succeeds exactly if every dirty page does. -/
theorem purgePages_succeeds (s : σ) {status : BitVec 32} (succeeds : succeeded status = true) :
    succeeded (purgePages k cb m pages status s).1 = true ↔
      ∀ page ∈ pages, page.dirty = true → succeeded (pageWriteStatus k cb m page) = true := by
  induction pages generalizing status s with
  | nil => exact iff_of_true succeeds fun page member => absurd member List.not_mem_nil
  | cons page pages ih =>
    rw [purgePages, List.forall_mem_cons]
    split
    · rename_i marked
      dsimp only
      rw [ccpActualWritePage_status]
      split
      · rename_i writes
        exact (ih _ writes).trans (and_iff_right fun _ => writes).symm
      · rename_i fails
        exact iff_of_false fails fun all => fails (all.1 marked)
    · rename_i unmarked
      exact (ih _ succeeds).trans (and_iff_right fun marked => absurd marked unmarked).symm

theorem purgeEvents_ok {n : Nat} (all : ∀ page ∈ pages, page.dirty = true → PageWritten cb m page) :
    ∀ e ∈ purgeEvents k cb m n pages, CallbackOk e := by
  induction pages generalizing n with
  | nil => exact fun e member => absurd member List.not_mem_nil
  | cons page pages ih =>
    obtain ⟨first, rest⟩ := List.forall_mem_cons.mp all
    intro e member
    rw [purgeEvents] at member
    split at member
    · rename_i marked
      rcases List.mem_append.mp member with here | later
      · obtain ⟨_, write, writes, written⟩ := first marked
        unfold pageWriteEvents at here
        rw [writes] at here
        obtain ⟨i, below, rfl⟩ := List.mem_map.mp here
        exact written i (List.mem_range.mp below)
      · split at later
        · exact ih rest e later
        · exact absurd later List.not_mem_nil
    · exact ih rest e member

/-- Every page that loses its mark is written to the end. -/
def MarksTold (k : Resources) (cb : Callbacks σ) (m : CacheMap) : Prop :=
  ∀ (i : Nat) (page : CachedPage), m.pageCacheMap[i]? = some page → page.dirty = true →
    Unfailing k cb m m.pageCacheMap i → PageWritten cb m page

def ccPurgeCacheFileEvents (k : Resources) (cb : Callbacks σ) (file : File) : List CacheEvent :=
  purgeEvents k cb file.cacheMap 0 file.cacheMap.pageCacheMap

theorem purge_reported_iff (k : Resources) (cb : Callbacks σ) (s : σ) (file : File) :
    ErrorsReported file.cacheMap (ccPurgeCacheFile k cb s file).2.1.cacheMap (ccPurgeCacheFile k cb s file).1
      (ccPurgeCacheFileEvents k cb file) ↔ MarksTold k cb file.cacheMap := by
  have begins : succeeded Status.success.code = true := by decide
  have cleaned := @purgePages_cleaned σ k cb file.cacheMap
  constructor
  · intro reported i page here dirty unfailing
    have written := reported.marks i page ⟨here, dirty, (cleaned s _ here dirty).mpr unfailing⟩
    rw [← Nat.zero_add i] at written
    exact (purgeEvents_written 0 here dirty unfailing.before).mp written
  · intro told
    constructor
    · intro succeeds
      have all := (purgePages_succeeds s begins).mp succeeds
      apply purgeEvents_ok
      intro page member dirty
      obtain ⟨i, here⟩ := List.mem_iff_getElem?.mp member
      exact told i page here dirty fun q taken => all q (List.mem_of_mem_take taken)
    · rintro slot page ⟨here, dirty, clean⟩
      have unfailing := (cleaned s _ here dirty).mp clean
      have written := told slot page here dirty unfailing
      rw [← Nat.zero_add slot]
      exact (purgeEvents_written 0 here dirty unfailing.before).mpr written

end Purges

section Calls

variable {σ : Type} {k : Resources} {cb : Callbacks σ}

theorem readPiece_tells (s : σ) (cache : Bool) (clustersPerPage : Nat) :
    PieceTells k cb clustersPerPage (readPiece k cb s cache) := by
  intro r b t clusters
  rw [← clusters, ← ccpActualReadPage_status k cb s t.cacheMap r.pageNumber b]
  unfold readPiece
  dsimp only
  split <;> rfl

theorem writePiece_tells (s : σ) (clustersPerPage : Nat) : PieceTells k cb clustersPerPage (writePiece k cb s) := by
  intro r b t clusters
  rw [← clusters, ← ccpActualReadPage_status k cb s t.cacheMap r.pageNumber b]
  unfold writePiece
  dsimp only
  split <;> rfl

/-- No cluster that is read fails, or the page with which the request ends does. -/
def ReadsTold (k : Resources) (cb : Callbacks σ) (m : CacheMap) (fetch : Bool) (r : Request) : Prop :=
  (∀ p ∈ visits m fetch r, PageTold cb m.clustersPerPage p) ∨ ∃ p, endsAt m fetch r = some p ∧ pageReads k cb m p = false

theorem Ended.reported {m m' : CacheMap} {fetch : Bool} {r : Request} {status : BitVec 32} {events : List CacheEvent}
    (ended : Ended k cb m fetch r status events) (kept : MarksKept m m') :
    ErrorsReported m m' status events ↔ ReadsTold k cb m fetch r := by
  constructor
  · intro reported
    by_cases succeeds : succeeded status = true
    · exact .inl (ended.events.mp (reported.status succeeds))
    · right
      by_contra reads
      apply succeeds
      rw [ended.status]
      intro p last
      exact Bool.not_eq_false _ ▸ fun fails => reads ⟨p, last, fails⟩
  · intro told
    constructor
    · intro succeeds
      rcases told with all | ⟨p, last, fails⟩
      · exact ended.events.mpr all
      · have reads := ended.status.mp succeeds p last
        rw [fails] at reads
        cases reads
    · rintro slot page ⟨here, dirty, clean⟩
      obtain ⟨page', here', dirty'⟩ := kept slot page here dirty
      rw [clean page' here'] at dirty'
      cases dirty'

/-- A read or a write reports the failures of its driver exactly if there are none to report or the last page read is one;
a purge, and the marks that it takes away, are to be trusted exactly if no page of those it takes for written was not. -/
theorem errors_reported_iff (checked : Bool) (k : Resources) (cb : Callbacks σ) (s : σ) (file : File)
    (offset : BitVec 32) (buffer : Buffer) (size nBytes : BitVec 32) :
    (∀ res, ccCacheReadFile checked k cb s file offset buffer size nBytes = some res →
      (ErrorsReported file.cacheMap res.2.cacheMap res.1
        (ccCacheReadFileEvents checked k cb s file offset buffer size nBytes) ↔
          ReadsTold k cb file.cacheMap file.readThrough (.start offset size))) ∧
    (∀ res, ccCacheWriteFile checked k cb s file offset buffer size nBytes = some res →
      (ErrorsReported file.cacheMap res.2.cacheMap res.1
        (ccCacheWriteFileEvents checked k cb s file offset buffer size nBytes) ↔
          ReadsTold k cb file.cacheMap file.writeThrough (.start offset size))) ∧
    (ErrorsReported file.cacheMap (ccPurgeCacheFile k cb s file).2.1.cacheMap (ccPurgeCacheFile k cb s file).1
      (ccPurgeCacheFileEvents k cb file) ↔ MarksTold k cb file.cacheMap) := by
  refine ⟨?_, ?_, purge_reported_iff k cb s file⟩
  · intro res ends
    unfold ccCacheReadFile at ends
    unfold ccCacheReadFileEvents
    dsimp only at ends ⊢
    split at ends
    · contradiction
    · rename_i runs
      rw [if_neg runs]
      cases through : file.readThrough with
      | true =>
        rw [through, if_pos rfl] at ends
        rw [if_pos rfl]
        exact (ccpActual_ended (readPiece_through k cb s file.cacheMap) (readPiece_tells s false _) rfl ends).reported
          (ccpActual_marks (readPiece_marks k cb s false) ends)
      | false =>
        rw [through, if_neg Bool.false_ne_true] at ends
        rw [if_neg Bool.false_ne_true]
        exact (afterSearch_ended (readPiece_caches k cb s file.cacheMap) (readPiece_tells s true _) rfl ends).reported
          (afterSearch_marks (readPiece_marks k cb s true) ends)
  · intro res ends
    unfold ccCacheWriteFile at ends
    unfold ccCacheWriteFileEvents
    dsimp only at ends ⊢
    split at ends
    · contradiction
    · rename_i runs
      rw [if_neg runs]
      cases through : file.writeThrough with
      | true =>
        rw [through, if_pos rfl] at ends
        rw [if_pos rfl]
        exact (ccpActual_ended (writePiece_caches k cb s file.cacheMap) (writePiece_tells s _) rfl ends).reported
          (ccpActual_marks (writePiece_marks k cb s) ends)
      | false =>
        rw [through, if_neg Bool.false_ne_true] at ends
        rw [if_neg Bool.false_ne_true]
        exact (afterSearch_ended (writePiece_caches k cb s file.cacheMap) (writePiece_tells s _) rfl ends).reported
          (afterSearch_marks (writePiece_marks k cb s) ends)

end Calls

/-- A file in memory by clusters of 512 bytes, whose driver answers what it is told to. -/
def answering (status : Nat → BitVec 32) : Callbacks Buffer where
  actualRead := some { status := status, bytes := fun s c _ j => s (c * 512 + j) }
  actualWrite := some { status := status, store := fun s c b => memcpy s (c * 512) b 0 512 }

def firstFails (c : Nat) : BitVec 32 := if c = 0 then Status.unsuccessful.code else Status.success.code

theorem enough_allocates (p : Nat) : enough.tempPage p ≠ none := Option.some_ne_none _

theorem firstByte_visits {fetch : Bool} : visits (freshMap 512 32) fetch (.start 0 1) = [0] := by
  have one_page : ¬(Request.start 0 1).More := by decide
  cases fetch with
  | true =>
    rw [visits_fetch, if_neg one_page]
    rfl
  | false =>
    rw [visits_missing (freshMap_copyOf 512 32 _), visits_fetch, if_neg one_page]
    rfl

/-- A page whose driver fails on nothing is told. -/
theorem firstByte_told : ∃ res,
    ccCacheReadFile true enough (answering fun _ => Status.success.code) (fun _ => 0) (opened false false) 0 (fun _ => 0) 1 0 =
      some res ∧
    ErrorsReported (opened false false).cacheMap res.2.cacheMap res.1 (ccCacheReadFileEvents true enough
      (answering fun _ => Status.success.code) (fun _ => 0) (opened false false) 0 (fun _ => 0) 1 0) := by
  obtain ⟨res, ends⟩ := ccCacheReadFile_ends enough_allocates true (answering fun _ => Status.success.code) (fun _ => 0)
    (opened false false) 0 (fun _ => 0) 1 0 (by decide)
  refine ⟨res, ends, ((errors_reported_iff true enough _ (fun _ => 0) (opened false false) 0 (fun _ => 0) 1 0).1 res
    ends).mpr (.inl ?_)⟩
  intro p _ read reads i _ _
  cases Option.some.inj reads
  exact .inl (by decide : succeeded Status.success.code = true)

/-- The first cluster of a page cannot be read, the last one can, and the read succeeds. -/
theorem firstFails_unreported : ∃ res,
    ccCacheReadFile true enough (answering firstFails) (fun _ => 0) (opened false false) 0 (fun _ => 0) 1 0 = some res ∧
    ¬ErrorsReported (opened false false).cacheMap res.2.cacheMap res.1
      (ccCacheReadFileEvents true enough (answering firstFails) (fun _ => 0) (opened false false) 0 (fun _ => 0) 1 0) := by
  obtain ⟨res, ends⟩ := ccCacheReadFile_ends enough_allocates true (answering firstFails) (fun _ => 0)
    (opened false false) 0 (fun _ => 0) 1 0 (by decide)
  refine ⟨res, ends, fun reported => ?_⟩
  have one_page : ¬(Request.start 0 1).More := by decide
  have ended : Ended enough (answering firstFails) (freshMap 512 32) false (.start 0 1) res.1
      (afterSearchEvents enough (answering firstFails) (readPiece enough (answering firstFails) (fun _ => 0) true) false
        (.start 0 1) ⟨freshMap 512 32, fun _ => 0, 0⟩) :=
    afterSearch_ended (readPiece_caches _ _ _ _) (readPiece_tells _ _ _) rfl ends
  have succeeds : succeeded res.1 = true := by
    rw [ended.status, endsAt_missing (freshMap_copyOf 512 32 _), endsAt_fetch, if_neg one_page]
    intro p last
    cases Option.some.inj last
    decide
  have told := ended.events.mp (reported.status succeeds) 0 (by rw [firstByte_visits]; exact List.mem_singleton_self 0)
  have first := told _ rfl 0 (by decide) fun j below => absurd below (Nat.not_lt_zero j)
  exact absurd first (by decide)

end Gr8os.Cc
