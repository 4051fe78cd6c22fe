import Gr8os.Cc.ReadLengths
import Gr8os.Cc.ErrorReports

/-! How many bytes a read or a write of a cached file counts, and which bytes of the caller's buffer it touches. -/
namespace Gr8os.Cc

open Bytes Slots

def Touched (events : List CacheEvent) (x : Nat) : Prop :=
  ∃ place n, CacheEvent.access place n ∈ events ∧ place ≤ x ∧ x < place + n

/-- Of the caller's buffer exactly the bytes between two places are touched. -/
def Covers (events : List CacheEvent) (first last : Nat) : Prop := ∀ x, Touched events x ↔ first ≤ x ∧ x < last

theorem touched_append {events events' : List CacheEvent} {x : Nat} :
    Touched (events ++ events') x ↔ Touched events x ∨ Touched events' x := by
  constructor
  · rintro ⟨place, n, member, inside⟩
    exact (List.mem_append.mp member).imp (fun here => ⟨place, n, here, inside⟩) fun here => ⟨place, n, here, inside⟩
  · rintro (⟨place, n, member, inside⟩ | ⟨place, n, member, inside⟩)
    · exact ⟨place, n, List.mem_append_left _ member, inside⟩
    · exact ⟨place, n, List.mem_append_right _ member, inside⟩

namespace Covers

variable {events events' : List CacheEvent} {a b c : Nat}

theorem nil (a : Nat) : Covers [] a a := by
  intro x
  constructor
  · rintro ⟨place, n, member, _⟩
    exact absurd member List.not_mem_nil
  · omega

theorem append (first : Covers events a b) (second : Covers events' b c) (below : a ≤ b) (above : b ≤ c) :
    Covers (events ++ events') a c := by
  intro x
  rw [touched_append, first x, second x]
  omega

theorem access (place n : Nat) : Covers [.access place n] place (place + n) := by
  intro x
  constructor
  · rintro ⟨place', n', member, inside⟩
    cases List.mem_singleton.mp member
    exact inside
  · exact fun inside => ⟨place, n, List.mem_singleton_self _, inside⟩

/-- What is no access touches nothing. -/
theorem after (others : ∀ e ∈ events, ∀ place n, e ≠ .access place n) (covers : Covers events' a b) :
    Covers (events ++ events') a b := by
  intro x
  rw [touched_append, covers x]
  constructor
  · rintro (⟨place, n, member, _⟩ | inside)
    · exact absurd rfl (others _ member place n)
    · exact inside
  · exact Or.inr

end Covers

theorem clusterReads_no_access (status : Nat → BitVec 32) (first : Nat) (is : List Nat) :
    ∀ e ∈ clusterReads status first is, ∀ place n, e ≠ .access place n := by
  induction is with
  | nil => exact fun e member => absurd member List.not_mem_nil
  | cons i is ih =>
    intro e member place n
    unfold clusterReads at member
    rcases List.mem_cons.mp member with rfl | later
    · exact CacheEvent.noConfusion
    · split at later
      · exact absurd later List.not_mem_nil
      · exact ih e later place n

section Counts

variable {σ : Type} {k : Resources} {cb : Callbacks σ} {writeOperation : Bool} {r : Request} {t : Transfer}
  {clustersPerPage : Nat}

theorem pageReadEvents_no_access (cb : Callbacks σ) (clustersPerPage p : Nat) :
    ∀ e ∈ pageReadEvents cb clustersPerPage p, ∀ place n, e ≠ .access place n := by
  unfold pageReadEvents
  cases cb.actualRead with
  | none => exact fun e member => absurd member List.not_mem_nil
  | some read => exact clusterReads_no_access _ _ _

/-- So many bytes of a request are found in the cache. -/
structure Searched (r : Request) (t : Transfer) (events : List CacheEvent) (n : Nat) (t' : Transfer) : Prop where
  nBytes : t'.nBytes = t.nBytes + BitVec.ofNat 32 n
  covers : Covers events r.buffer (r.buffer + n)
  alike : Alike t.cacheMap t'.cacheMap

theorem Searched.refl (r : Request) (t : Transfer) : Searched r t [] 0 t where
  nBytes := by simp
  covers := .nil _
  alike := .refl _

theorem copyPiece_nBytes (writeOperation : Bool) (r : Request) (i : Nat) (page : CachedPage) (n : Nat) (t : Transfer) :
    (copyPiece writeOperation r i page n t).nBytes = t.nBytes + BitVec.ofNat 32 n := by
  cases writeOperation <;> rfl

theorem markModified_nBytes (writeOperation : Bool) (i : Nat) (t : Transfer) :
    (markModified writeOperation i t).nBytes = t.nBytes := by
  cases writeOperation <;> rfl

theorem Searched.next {t₁ t₂ : Transfer} {events : List CacheEvent} {n : Nat}
    (counted : t₁.nBytes = t.nBytes + BitVec.ofNat 32 r.readpart) (alike : Alike t.cacheMap t₁.cacheMap)
    (rest : Searched r.next t₁ events n t₂) :
    Searched r t (.access r.buffer r.readpart :: events) (r.readpart + n) t₂ where
  nBytes := by rw [rest.nBytes, counted, BitVec.ofNat_add, BitVec.add_assoc]
  covers := by
    rw [← Nat.add_assoc]
    exact (Covers.access r.buffer r.readpart).append rest.covers (Nat.le_add_right ..) (Nat.le_add_right ..)
  alike := alike.trans rest.alike

theorem repeatRead_searched (writeOperation : Bool) (r : Request) (t : Transfer) :
    Found r t.cacheMap (Searched r t (repeatReadEvents writeOperation r t) r.size)
      (Searched r t (repeatReadEvents writeOperation r t)) (repeatRead writeOperation r t) := by
  fun_induction repeatRead writeOperation r t with
  | case1 r t missing =>
    rw [repeatReadEvents, missing]
    exact .here (find?_none_of_findIdx? missing) (.refl r t)
  | case2 r t i found page short =>
    have copied : t.cacheMap.copyOf r.pageNumber = some page := getD_of_findIdx? found
    have here : t.cacheMap.pageCacheMap[i]? = some page := (find?_of_findIdx? found).symm.trans copied
    have events : repeatReadEvents writeOperation r t = [.access r.buffer r.size] := by
      rw [repeatReadEvents, found]
      simp only [if_pos short]
    rw [events]
    refine .only short (by simp [copied]) ⟨?_, .access _ _, (copyPiece_alike here).trans markModified_alike⟩
    rw [markModified_nBytes, copyPiece_nBytes]
  | case3 r t i found page long ih =>
    have copied : t.cacheMap.copyOf r.pageNumber = some page := getD_of_findIdx? found
    have here : t.cacheMap.pageCacheMap[i]? = some page := (find?_of_findIdx? found).symm.trans copied
    have alike : Alike t.cacheMap (copyPiece writeOperation r i page r.readpart t).cacheMap := copyPiece_alike here
    have counted := copyPiece_nBytes writeOperation r i page r.readpart t
    have longer : r.readpart < r.size := Nat.lt_of_not_ge long
    have events : repeatReadEvents writeOperation r t = .access r.buffer r.readpart ::
        repeatReadEvents writeOperation r.next (copyPiece writeOperation r i page r.readpart t) := by
      rw [repeatReadEvents, found]
      simp only [if_neg long]
      rfl
    rw [events]
    refine Found.after longer (by simp [copied]) alike.copyOf ih ?_ fun n t' part => .next counted alike part
    intro t' done
    have whole : r.readpart + r.next.size = r.size := (Nat.add_comm ..).trans (Advanced.next longer).size
    exact whole ▸ Searched.next counted alike done

/-- A piece of a transfer whose page can be read counts its bytes. -/
def PieceCounts (clustersPerPage : Nat) (piece : Request → Buffer → Transfer → BitVec 32 × Transfer) : Prop :=
  ∀ r b t, t.cacheMap.clustersPerPage = clustersPerPage →
    (piece r b t).2.nBytes = t.nBytes + BitVec.ofNat 32 r.piece ∧
      (piece r b t).2.cacheMap.clustersPerPage = clustersPerPage

theorem readPiece_counts {m : CacheMap} (s : σ) (cache : Bool) (full : ∀ p, pageReads k cb m p = true) :
    PieceCounts m.clustersPerPage (readPiece k cb s cache) := by
  intro r b t clusters
  have status := ccpActualReadPage_status k cb s t.cacheMap r.pageNumber b
  have reads : succeeded (pageStatus k cb m.clustersPerPage r.pageNumber) = true := full r.pageNumber
  rw [clusters] at status
  unfold readPiece
  dsimp only
  rw [status, if_pos reads]
  refine ⟨rfl, ?_⟩
  cases cache with
  | false => exact clusters
  | true => exact (ccpCacheFilePage_put ..).clustersPerPage.trans clusters

theorem writePiece_counts {m : CacheMap} (s : σ) (full : ∀ p, pageReads k cb m p = true) :
    PieceCounts m.clustersPerPage (writePiece k cb s) := by
  intro r b t clusters
  have status := ccpActualReadPage_status k cb s t.cacheMap r.pageNumber b
  have reads : succeeded (pageStatus k cb m.clustersPerPage r.pageNumber) = true := full r.pageNumber
  rw [clusters] at status
  unfold writePiece
  dsimp only
  rw [status, if_pos reads]
  exact ⟨rfl, (ccpCacheFilePage_put ..).clustersPerPage.trans clusters⟩

theorem pieceEvents_covers {m : CacheMap} (full : ∀ p, pageReads k cb m p = true)
    (clusters : t.cacheMap.clustersPerPage = m.clustersPerPage) :
    Covers (pieceEvents k cb r t) r.buffer (r.buffer + r.piece) := by
  have reads : pageReads k cb t.cacheMap r.pageNumber = true := by
    unfold pageReads
    rw [clusters]
    exact full r.pageNumber
  unfold pieceEvents
  rw [if_pos reads]
  exact .after (pageReadEvents_no_access _ _ _) (.access _ _)

/-- What a transfer does with the count: a page that is the last one is added to what was counted, before another page
the count begins anew. -/
structure Counted (r : Request) (t : Transfer) (events : List CacheEvent) (t' : Transfer) : Prop where
  covers : Covers events r.buffer (r.buffer + r.size)
  short : r.size ≤ r.readpart → t'.nBytes = t.nBytes + BitVec.ofNat 32 r.size
  long : r.readpart < r.size → t'.nBytes.toNat ≤ r.next.size

theorem Searched.toNat {t' : Transfer} {events : List CacheEvent} {n : Nat} (zero : t.nBytes = 0) (fits : n < 4294967296)
    (searched : Searched r t events n t') : t'.nBytes.toNat = n := by
  rw [searched.nBytes, zero]
  show (0#32 + BitVec.ofNat 32 n).toNat = n
  rw [BitVec.zero_add, BitVec.toNat_ofNat, Nat.mod_eq_of_lt fits]

theorem Counted.total {t' : Transfer} {events : List CacheEvent} (counted : Counted r t events t')
    (short : r.size ≤ r.readpart) (fits : t.nBytes.toNat + r.size < 4294967296) :
    t'.nBytes.toNat = t.nBytes.toNat + r.size := by
  rw [counted.short short]
  exact count_toNat fits

theorem Counted.less {t' : Transfer} {events : List CacheEvent} (counted : Counted r t events t')
    (long : r.readpart < r.size) : t'.nBytes.toNat < r.size :=
  Nat.lt_of_le_of_lt (counted.long long) (Request.next_size_lt (Nat.sub_pos_of_lt long))

/-- What is left of a request is touched behind what is done of it. -/
theorem Advanced.covers {r' : Request} {n : Nat} {events events' : List CacheEvent} (advanced : Advanced r r' n)
    (done : Covers events r.buffer (r.buffer + n)) (rest : Covers events' r'.buffer (r'.buffer + r'.size)) :
    Covers (events ++ events') r.buffer (r.buffer + r.size) := by
  have size := advanced.size
  have place := advanced.buffer
  have whole : r.buffer + r.size = r'.buffer + r'.size := by omega
  rw [← place] at done
  rw [whole]
  exact done.append rest (by omega) (Nat.le_add_right ..)

theorem ccpActual_counted {m : CacheMap} {piece : Request → Buffer → Transfer → BitVec 32 × Transfer}
    {res : BitVec 32 × Transfer} (full : ∀ p, pageReads k cb m p = true) (counts : PieceCounts m.clustersPerPage piece)
    (clusters : t.cacheMap.clustersPerPage = m.clustersPerPage) (small : r.size ≤ 2 ^ 31)
    (ends : ccpActual k piece writeOperation r t = some res) :
    Counted r t (ccpActualEvents k cb piece writeOperation r t) res.2 := by
  fun_induction ccpActual k piece writeOperation r t with
  | case1 => contradiction
  | case2 r t tempPage allocated status t₁ first more found missing ih =>
    have after : (piece r tempPage t).2 = t₁ := by rw [first]
    obtain ⟨counted, kept⟩ := counts r tempPage t clusters
    rw [after] at counted kept
    have long : r.readpart < r.size := (Request.more_iff small).mp more
    have shorter := Request.next_size_lt more.1
    have searched : Found r.next t₁.cacheMap _ _ found := repeatRead_searched writeOperation r.next { t₁ with nBytes := 0 }
    have events : ccpActualEvents k cb piece writeOperation r t = pieceEvents k cb r t ++
        (findEvents writeOperation r.next t₁ ++ ccpActualEvents k cb piece writeOperation found.2.1 found.2.2) := by
      rw [ccpActualEvents, allocated]
      simp only [after, dif_pos more]
      rw [if_pos missing]
    have first_covers : Covers (pieceEvents k cb r t) r.buffer (r.buffer + r.readpart) :=
      Request.piece_long long ▸ pieceEvents_covers full clusters
    rw [events]
    generalize found = outcome at *
    cases searched with
    | all copied done =>
      have different : ¬Status.success.code = Status.notFound.code := by decide
      exact absurd missing different
    | @missing r' t₂ n advanced copied absent part =>
      have size := advanced.size
      have count : t₂.nBytes.toNat = n := part.toNat rfl (by omega)
      have rest := ih (part.alike.clustersPerPage.trans kept) (by show r'.size ≤ _; omega) ends
      have covers := (Advanced.next long).covers first_covers (advanced.covers part.covers rest.covers)
      refine ⟨covers, fun short => absurd long (Nat.not_lt.mpr short), fun _ => ?_⟩
      by_cases short : r'.size ≤ r'.readpart
      · have fits : t₂.nBytes.toNat + r'.size < 4294967296 := by omega
        have total : res.2.nBytes.toNat = t₂.nBytes.toNat + r'.size := rest.total short fits
        omega
      · have less : res.2.nBytes.toNat < r'.size := rest.less (Nat.lt_of_not_ge short)
        omega
  | case3 r t tempPage allocated status t₁ first more found present =>
    cases Option.some.inj ends
    have after : (piece r tempPage t).2 = t₁ := by rw [first]
    have long : r.readpart < r.size := (Request.more_iff small).mp more
    have shorter := Request.next_size_lt more.1
    have searched : Found r.next t₁.cacheMap _ _ found := repeatRead_searched writeOperation r.next { t₁ with nBytes := 0 }
    have events : ccpActualEvents k cb piece writeOperation r t = pieceEvents k cb r t ++ findEvents writeOperation r.next t₁ := by
      rw [ccpActualEvents, allocated]
      simp only [after, dif_pos more]
      rw [if_neg present, List.append_nil]
    have first_covers : Covers (pieceEvents k cb r t) r.buffer (r.buffer + r.readpart) :=
      Request.piece_long long ▸ pieceEvents_covers full clusters
    rw [events]
    generalize found = outcome at *
    cases searched with
    | @all r' t₂ copied done =>
      have covers := (Advanced.next long).covers first_covers done.covers
      refine ⟨covers, fun short => absurd long (Nat.not_lt.mpr short), fun _ => ?_⟩
      exact Nat.le_of_eq (done.toNat rfl (by omega))
    | missing => exact absurd rfl present
  | case4 r t tempPage allocated status t₁ first once =>
    cases Option.some.inj ends
    have after : (piece r tempPage t).2 = t₁ := by rw [first]
    obtain ⟨counted, _⟩ := counts r tempPage t clusters
    rw [after] at counted
    have short : r.size ≤ r.readpart := Nat.le_of_not_gt (mt (Request.more_iff small).mpr once)
    have events : ccpActualEvents k cb piece writeOperation r t = pieceEvents k cb r t := by
      rw [ccpActualEvents, allocated]
      simp only [dif_neg once, List.append_nil]
    have covers := pieceEvents_covers (r := r) (t := t) full clusters
    rw [Request.piece_short short] at counted covers
    rw [events]
    exact ⟨covers, fun _ => counted, fun long => absurd short (Nat.not_le.mpr long)⟩

/-- A search and the transfer of what it did not find count the whole request if only its last page can be missing. -/
theorem afterSearch_counted {m : CacheMap} {piece : Request → Buffer → Transfer → BitVec 32 × Transfer}
    {res : BitVec 32 × Transfer} (full : ∀ p, pageReads k cb m p = true) (counts : PieceCounts m.clustersPerPage piece)
    (clusters : t.cacheMap.clustersPerPage = m.clustersPerPage) (small : r.size ≤ 2 ^ 31)
    (ends : afterSearch (ccpActual k piece writeOperation) (ccpFindAndReadWrite writeOperation r t) = some res) :
    Covers (afterSearchEvents k cb piece writeOperation r t) r.buffer (r.buffer + r.size) ∧
      (res.2.nBytes.toNat = r.size ↔ ∀ p, r.pageNumber ≤ p → p < r.last → t.cacheMap.copyOf p ≠ none) := by
  have searched : Found r t.cacheMap _ _ (ccpFindAndReadWrite writeOperation r t) :=
    repeatRead_searched writeOperation r { t with nBytes := 0 }
  unfold afterSearchEvents
  unfold afterSearch at ends
  generalize ccpFindAndReadWrite writeOperation r t = found at searched ends ⊢
  cases searched with
  | @all r' t' copied done =>
    have different : ¬Status.success.code = Status.notFound.code := by decide
    simp only [if_neg different, Option.bind_eq_bind, Option.bind_some, Option.some.injEq] at ends
    cases ends
    simp only [if_neg different, List.append_nil]
    have count : t'.nBytes.toNat = r.size := done.toNat rfl (by omega)
    exact ⟨done.covers, fun _ p above below => copied p above (Nat.le_of_lt below), fun _ => count⟩
  | @missing r' t' n advanced copied absent part =>
    simp only [if_true, Option.bind_eq_bind, Option.bind_map, Option.bind_eq_some_iff, Option.some.injEq,
      Function.comp_apply] at ends
    obtain ⟨res', transferred, rfl⟩ := ends
    have size := advanced.size
    have rest := ccpActual_counted full counts (part.alike.clustersPerPage.trans clusters)
      (by show r'.size ≤ _; omega) transferred
    have count : t'.nBytes.toNat = n := part.toNat rfl (by omega)
    constructor
    · dsimp only
      rw [if_pos rfl]
      exact advanced.covers part.covers rest.covers
    · by_cases short : r'.size ≤ r'.readpart
      · have fits : t'.nBytes.toNat + r'.size < 4294967296 := by omega
        have total : res'.2.nBytes.toNat = t'.nBytes.toNat + r'.size := rest.total short fits
        have only : r.last = r'.pageNumber := advanced.last_eq ▸ Request.last_of_short short
        refine ⟨fun _ p above below => copied p above (only ▸ below), fun _ => ?_⟩
        show res'.2.nBytes.toNat = r.size
        omega
      · have long : r'.readpart < r'.size := Nat.lt_of_not_ge short
        have less : res'.2.nBytes.toNat < r'.size := rest.less long
        have before : r'.pageNumber < r.last := advanced.last_eq ▸ Request.last_of_long long
        constructor
        · intro counted
          have counted : res'.2.nBytes.toNat = r.size := counted
          omega
        · exact fun copies => absurd absent (copies _ advanced.page_le before)

/-- A call touches the caller's buffer from its start up to the size asked for, and counts that many bytes. -/
structure Transferred (size : BitVec 32) (events : List CacheEvent) (res : BitVec 32 × Transfer) : Prop where
  nBytes : res.2.nBytes = size
  buffer : Covers events 0 size.toNat

/-- The count is kept: no search begins anew behind a page that a transfer has read, and a request that is not searched
for adds to a count of zero. -/
def CountKept (through : Bool) (m : CacheMap) (r : Request) (nBytes : BitVec 32) : Prop :=
  if through = true then r.size ≤ r.readpart ∧ nBytes = 0
  else ∀ p, r.pageNumber ≤ p → p < r.last → m.copyOf p ≠ none

theorem transferred_searched {size : BitVec 32} {events : List CacheEvent} {res : BitVec 32 × Transfer}
    {kept : Prop} (counted : Covers events 0 (0 + size.toNat) ∧ (res.2.nBytes.toNat = size.toNat ↔ kept)) :
    Transferred size events res ↔ kept := by
  rw [Nat.zero_add] at counted
  constructor
  · intro transferred
    exact counted.2.mp (congrArg BitVec.toNat transferred.nBytes)
  · intro keeps
    exact ⟨BitVec.eq_of_toNat_eq (counted.2.mpr keeps), counted.1⟩

theorem transferred_through {offset size : BitVec 32} {events : List CacheEvent} {res : BitVec 32 × Transfer}
    (counted : Counted (.start offset size) t events res.2) :
    Transferred size events res ↔ (Request.start offset size).size ≤ (Request.start offset size).readpart ∧ t.nBytes = 0 := by
  have covers : Covers events 0 (0 + size.toNat) := counted.covers
  rw [Nat.zero_add] at covers
  constructor
  · rintro ⟨total, _⟩
    by_cases short : (Request.start offset size).size ≤ (Request.start offset size).readpart
    · have added : res.2.nBytes = t.nBytes + BitVec.ofNat 32 size.toNat := counted.short short
      rw [total, BitVec.ofNat_toNat, BitVec.setWidth_eq] at added
      exact ⟨short, BitVec.self_eq_add_left.mp added⟩
    · have long : (Request.start offset size).readpart < (Request.start offset size).size := Nat.lt_of_not_ge short
      have most := counted.long long
      have shorter : (Request.start offset size).next.size < size.toNat := Request.next_size_lt (Nat.sub_pos_of_lt long)
      rw [total] at most
      exact absurd most (Nat.not_le.mpr shorter)
  · rintro ⟨short, zero⟩
    have added : res.2.nBytes = t.nBytes + BitVec.ofNat 32 size.toNat := counted.short short
    refine ⟨?_, covers⟩
    rw [added, zero, BitVec.ofNat_toNat, BitVec.setWidth_eq]
    exact BitVec.zero_add size

/-- A read and a write count alike: past the cache, or through a search of it. -/
theorem transferred_either {m : CacheMap} {direct cached : Request → Buffer → Transfer → BitVec 32 × Transfer}
    {through : Bool} {offset size nBytes : BitVec 32} {buffer : Buffer} {res : BitVec 32 × Transfer}
    (full : ∀ p, pageReads k cb m p = true) (directCounts : PieceCounts m.clustersPerPage direct)
    (cachedCounts : PieceCounts m.clustersPerPage cached) (fits : (Request.start offset size).size ≤ 2 ^ 31)
    (ends : (if through = true then ccpActual k direct writeOperation (.start offset size) ⟨m, buffer, nBytes⟩
      else afterSearch (ccpActual k cached writeOperation)
        (ccpFindAndReadWrite writeOperation (.start offset size) ⟨m, buffer, nBytes⟩)) = some res) :
    Transferred size
      (if through = true then ccpActualEvents k cb direct writeOperation (.start offset size) ⟨m, buffer, nBytes⟩
        else afterSearchEvents k cb cached writeOperation (.start offset size) ⟨m, buffer, nBytes⟩) res ↔
      CountKept through m (.start offset size) nBytes := by
  unfold CountKept
  cases through with
  | true =>
    rw [if_pos rfl] at ends ⊢
    rw [if_pos rfl]
    exact transferred_through (ccpActual_counted full directCounts rfl fits ends)
  | false =>
    rw [if_neg Bool.false_ne_true] at ends ⊢
    rw [if_neg Bool.false_ne_true]
    exact transferred_searched (afterSearch_counted full cachedCounts rfl fits ends)

/-- With a backing store whose pages can all be read, a call transfers what it was asked for if its count is kept. -/
theorem transferred_iff {file : File} {offset size nBytes : BitVec 32} (checked : Bool) (s : σ) (buffer : Buffer)
    (full : ∀ p, pageReads k cb file.cacheMap p = true) (small : size.toNat < pageSize * 20) :
    (∀ res, ccCacheReadFile checked k cb s file offset buffer size nBytes = some res → succeeded res.1 = true →
      (Transferred size (ccCacheReadFileEvents checked k cb s file offset buffer size nBytes) res ↔
        CountKept file.readThrough file.cacheMap (.start offset size) nBytes)) ∧
    ∀ res, ccCacheWriteFile checked k cb s file offset buffer size nBytes = some res → succeeded res.1 = true →
      (Transferred size (ccCacheWriteFileEvents checked k cb s file offset buffer size nBytes) res ↔
        CountKept file.writeThrough file.cacheMap (.start offset size) nBytes) := by
  have fits : (Request.start offset size).size ≤ 2 ^ 31 := by
    show size.toNat ≤ _
    unfold pageSize at small
    omega
  have within : ¬(checked && decide (pageSize * 20 ≤ (Request.start offset size).size)) = true := by
    have below : ¬pageSize * 20 ≤ (Request.start offset size).size := Nat.not_le.mpr small
    simp [below]
  constructor
  · intro res ends _
    unfold ccCacheReadFile at ends
    unfold ccCacheReadFileEvents
    dsimp only at ends ⊢
    rw [if_neg within] at ends ⊢
    exact transferred_either full (readPiece_counts s false full) (readPiece_counts s true full) fits ends
  · intro res ends _
    unfold ccCacheWriteFile at ends
    unfold ccCacheWriteFileEvents
    dsimp only at ends ⊢
    rw [if_neg within] at ends ⊢
    exact transferred_either full (writePiece_counts s full) (writePiece_counts s full) fits ends

end Counts

theorem memory_full (p : Nat) : pageReads enough memoryCallbacks (freshMap 512 32) p = true := rfl

theorem firstByte_transferred : ∃ res,
    ccCacheReadFile true enough memoryCallbacks (fun _ => 0) (opened false false) 0 (fun _ => 0) 1 0 = some res ∧
    Transferred 1 (ccCacheReadFileEvents true enough memoryCallbacks (fun _ => 0) (opened false false) 0 (fun _ => 0) 1 0)
      res := by
  obtain ⟨res, ends⟩ := ccCacheReadFile_ends enough_allocates true memoryCallbacks (fun _ => 0) (opened false false) 0
    (fun _ => 0) 1 0 (by decide)
  have ended : Ended enough memoryCallbacks (freshMap 512 32) false (.start 0 1) res.1 _ :=
    afterSearch_ended (readPiece_caches _ _ _ _) (readPiece_tells _ _ _) rfl ends
  have succeeds : succeeded res.1 = true := ended.status.mpr fun p _ => memory_full p
  have kept : CountKept false (freshMap 512 32) (.start 0 1) 0 := fun p _ before => absurd before (Nat.not_lt_zero p)
  have small : (1 : BitVec 32).toNat < pageSize * 20 := by decide
  have counts := (@transferred_iff _ enough memoryCallbacks (opened false false) 0 1 0 true (fun _ => 0) (fun _ => 0)
    memory_full small).1 res ends succeeds
  exact ⟨res, ends, counts.mpr kept⟩

/-- Two pages that have no copies are read, and the count is that of the second one. -/
theorem twoPages_miscounted : ∃ res,
    ccCacheReadFile true enough memoryCallbacks (fun _ => 0) (opened false false) 0 (fun _ => 0) 8192 0 = some res ∧
    succeeded res.1 = true ∧ ¬Transferred 8192
      (ccCacheReadFileEvents true enough memoryCallbacks (fun _ => 0) (opened false false) 0 (fun _ => 0) 8192 0) res := by
  obtain ⟨res, ends⟩ := ccCacheReadFile_ends enough_allocates true memoryCallbacks (fun _ => 0) (opened false false) 0
    (fun _ => 0) 8192 0 (by decide)
  have ended : Ended enough memoryCallbacks (freshMap 512 32) false (.start 0 8192) res.1 _ :=
    afterSearch_ended (readPiece_caches _ _ _ _) (readPiece_tells _ _ _) rfl ends
  refine ⟨res, ends, ended.status.mpr fun p _ => memory_full p, fun transferred => ?_⟩
  have counted := afterSearch_counted (t := ⟨freshMap 512 32, fun _ => 0, 0⟩) memory_full
    (readPiece_counts (fun _ => 0) true memory_full) rfl (by decide) ends
  have copies := counted.2.mp (congrArg BitVec.toNat transferred.nBytes)
  exact copies 0 (by decide) (by decide) (freshMap_copyOf 512 32 0)

end Gr8os.Cc
