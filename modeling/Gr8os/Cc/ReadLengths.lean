import Gr8os.Cc.Reads

/-! How many bytes a read of a cached file counts, and when it returns the bytes up to a given place of the file. -/
namespace Gr8os.Cc

open Bytes

variable {σ : Type} (k : Resources) (cb : Callbacks σ) (s : σ) (m : CacheMap)

/-- The page that a transfer would fill from the backing store. -/
def storePage (p : Nat) : Buffer := (ccpActualReadPage k cb s m p ((k.tempPage p).getD fun _ => 0)).2

/-- The byte at a place of the file, as a transfer of its page would find it. -/
def stored (i : Nat) : BitVec 8 := storePage k cb s m (i / 4096) (i % 4096)

/-- The kernel's answers with another value in the variables that nothing sets. -/
def Resources.withUnset (unset : BitVec 32) : Resources := { k with unset := unset }

variable {k cb s m}

theorem readClusters_same {m' : CacheMap} (same : SameClusters m m') (read : CacheRead σ) (p : Nat) (is : List Nat)
    (status : BitVec 32) (b : Buffer) : readClusters read m' s p is status b = readClusters read m s p is status b := by
  induction is generalizing status b with
  | nil => rfl
  | cons i is ih => simp only [readClusters, same.clusterSize, same.clustersPerPage, ih]

theorem ccpActualReadPage_same {m' : CacheMap} (same : SameClusters m m') (p : Nat) (b : Buffer) :
    ccpActualReadPage k cb s m' p b = ccpActualReadPage k cb s m p b := by
  unfold ccpActualReadPage
  cases cb.actualRead with
  | none => rfl
  | some read => simp only [same.clustersPerPage, readClusters_same same]

/-- What the status held before has no part in what is read. -/
theorem readClusters_buffer (read : CacheRead σ) (p : Nat) (is : List Nat) (status status' : BitVec 32) (b : Buffer) :
    (readClusters read m s p is status b).2 = (readClusters read m s p is status' b).2 := by
  cases is with
  | nil => rfl
  | cons i is => rfl

theorem stored_withUnset (unset : BitVec 32) : stored (k.withUnset unset) cb s m = stored k cb s m := by
  funext i
  unfold stored storePage ccpActualReadPage
  cases cb.actualRead with
  | none => rfl
  | some read => exact congrFun (readClusters_buffer read (i / 4096) _ unset k.unset _) (i % 4096)

/-- What the status held before is what it holds after only if there is nothing to read. -/
theorem pageStatus_withUnset (cb : Callbacks σ) (unset : BitVec 32) (p : Nat) (some : m.clustersPerPage ≠ 0) :
    pageStatus (k.withUnset unset) cb m.clustersPerPage p = pageStatus k cb m.clustersPerPage p := by
  unfold pageStatus
  cases cb.actualRead with
  | none => rfl
  | some read =>
    cases count : m.clustersPerPage with
    | zero => exact absurd count some
    | succ n => simp only [List.range_succ_eq_map, clustersStatus]

theorem pageStatus_nothing {read : CacheRead σ} (reads : cb.actualRead = some read) (unset : BitVec 32) (p : Nat) :
    pageStatus (k.withUnset unset) cb 0 p = unset := by
  unfold pageStatus
  rw [reads]
  rfl

/-! The end of a file is never told: it is taken for a success. -/

theorem clustersStatus_told (status : Nat → BitVec 32) (is : List Nat) {last : BitVec 32}
    (other : last ≠ Status.endOfFile.code) : clustersStatus status is last ≠ Status.endOfFile.code := by
  induction is generalizing last with
  | nil => exact other
  | cons i is ih =>
    unfold clustersStatus
    split
    · decide
    · rename_i goes_on
      split
      · exact goes_on
      · exact ih goes_on

theorem pageStatus_told (cb : Callbacks σ) (clustersPerPage p : Nat) (other : k.unset ≠ Status.endOfFile.code) :
    pageStatus k cb clustersPerPage p ≠ Status.endOfFile.code := by
  unfold pageStatus
  cases cb.actualRead with
  | none =>
    show Status.notSupported.code ≠ Status.endOfFile.code
    decide
  | some read => exact clustersStatus_told _ _ other

/-- One page that a read takes from the backing store. -/
structure PieceMoved (k : Resources) (cb : Callbacks σ) (s : σ) (m : CacheMap) (r : Request) (t : Transfer)
    (res : BitVec 32 × Transfer) : Prop where
  status : res.1 = pageStatus k cb m.clustersPerPage r.pageNumber
  grown : Grown (· = r.pageNumber) t.cacheMap res.2.cacheMap
  buffer : succeeded res.1 = true →
    res.2.buffer = memcpy t.buffer r.buffer (stored k cb s m) r.position r.piece
  nBytes : res.2.nBytes = if succeeded res.1 = true then t.nBytes + BitVec.ofNat 32 r.piece else t.nBytes

theorem readPiece_moved (cb : Callbacks σ) (s : σ) {cache : Bool} {r : Request} {t : Transfer} {b : Buffer}
    (same : SameClusters m t.cacheMap)
    (uncached : cache = true → t.cacheMap.copyOf r.pageNumber = none) (allocated : k.tempPage r.pageNumber = some b) :
    PieceMoved k cb s m r t (readPiece k cb s cache r b t) := by
  have status := ccpActualReadPage_status k cb s m r.pageNumber b
  have copied : memcpy t.buffer r.buffer (ccpActualReadPage k cb s m r.pageNumber b).2 r.pageOffset r.piece =
      memcpy t.buffer r.buffer (stored k cb s m) r.position r.piece := by
    apply memcpy_congr
    intro j below
    have fits := r.piece_le
    have number : (r.position + j) / 4096 = r.pageNumber := by
      unfold Request.position
      omega
    have place : (r.position + j) % 4096 = r.pageOffset + j := by
      unfold Request.position
      omega
    unfold stored storePage
    rw [number, place, allocated, Option.getD_some]
  unfold readPiece
  rw [ccpActualReadPage_same same]
  dsimp only
  rw [status]
  cases told : succeeded (pageStatus k cb m.clustersPerPage r.pageNumber) with
  | false => exact ⟨rfl, .refl _ _, fun succeeds => absurd (told.symm.trans succeeds) (by decide), by simp [told]⟩
  | true =>
    refine ⟨rfl, ?_, fun _ => copied, by simp [told]⟩
    cases cache with
    | false => exact .refl _ _
    | true => exact (ccpCacheFilePage_spec k _ (uncached rfl)).1

theorem repeatRead_view (disk : Nat → BitVec 8) (r : Request) (t : Transfer) :
    Found r t.cacheMap (ReadBy (t.cacheMap.view disk) r t r.size) (ReadBy (t.cacheMap.view disk) r t)
      (repeatRead false r t) :=
  repeatRead_read r t (fun _ _ => rfl) (Nat.le_refl _)

theorem count_toNat {n : Nat} {c : BitVec 32} (fits : c.toNat + n < 4294967296) :
    (c + BitVec.ofNat 32 n).toNat = c.toNat + n := by
  rw [BitVec.toNat_add, BitVec.toNat_ofNat]
  omega

theorem ccpActualRead_told {cache : Bool} {r : Request} {t : Transfer} {res : BitVec 32 × Transfer}
    (other : k.unset ≠ Status.endOfFile.code) (ends : ccpActualRead k cb s cache r t = some res) :
    res.1 ≠ Status.endOfFile.code := by
  unfold ccpActualRead at ends
  fun_induction ccpActual k (readPiece k cb s cache) false r t with
  | case1 r t missing => cases ends
  | case2 r t tempPage allocated status t₁ piece more found missing ih => exact ih ends
  | case3 r t tempPage allocated status t₁ piece more found present =>
    cases Option.some.inj ends
    have search : Found r.next t₁.cacheMap _ _ found :=
      repeatRead_view (fun _ => 0) r.next { t₁ with nBytes := 0 }
    show found.1 ≠ Status.endOfFile.code
    rw [(search.whole present).1]
    decide
  | case4 r t tempPage allocated status t₁ piece short =>
    cases Option.some.inj ends
    have told := pageStatus_told cb t.cacheMap.clustersPerPage r.pageNumber other
    rw [← ccpActualReadPage_status k cb s t.cacheMap r.pageNumber tempPage] at told
    unfold readPiece at piece
    dsimp only at piece
    split at piece
    · cases piece
      exact told
    · cases piece
      exact told

/-! A search counts from zero, so that what a transfer counts is what it moved since the last search. -/

theorem readPiece_nBytes (k : Resources) (cb : Callbacks σ) (s : σ) (cache : Bool) (b : Buffer) {r : Request}
    {t : Transfer} (fits : t.nBytes.toNat + r.size < 4294967296) :
    (readPiece k cb s cache r b t).2.nBytes.toNat ≤ t.nBytes.toNat + r.piece := by
  have within := r.piece_le.2
  unfold readPiece
  dsimp only
  split
  · exact Nat.le_of_eq (count_toNat (by omega))
  · exact Nat.le_add_right _ _

theorem ccpActualRead_counted {cache : Bool} {r : Request} {t : Transfer} {res : BitVec 32 × Transfer}
    (fits : t.nBytes.toNat + r.size < 4294967296) (ends : ccpActualRead k cb s cache r t = some res) :
    res.2.nBytes.toNat ≤ t.nBytes.toNat + r.size ∧
      (r.readpart < r.size → res.2.nBytes.toNat < t.nBytes.toNat + r.size) := by
  unfold ccpActualRead at ends
  fun_induction ccpActual k (readPiece k cb s cache) false r t with
  | case1 r t missing => cases ends
  | case2 r t tempPage allocated status t₁ piece more found missing ih =>
    have shorter := Request.next_size_lt more.1
    have search : Found r.next t₁.cacheMap _ _ found :=
      repeatRead_view (fun _ => 0) r.next { t₁ with nBytes := 0 }
    obtain ⟨n, advanced, copied, absent, part⟩ := search.stopped missing
    generalize found.2.1 = r', found.2.2 = t₂ at *
    have size := advanced.size
    have count : t₂.nBytes.toNat = n := by
      rw [part.nBytes]
      exact (count_toNat (by show 0 + n < _; omega)).trans (Nat.zero_add n)
    have rest := ih (by show t₂.nBytes.toNat + r'.size < _; omega) ends
    have most : res.2.nBytes.toNat ≤ t₂.nBytes.toNat + r'.size := rest.1
    omega
  | case3 r t tempPage allocated status t₁ piece more found present =>
    cases Option.some.inj ends
    have shorter := Request.next_size_lt more.1
    have search : Found r.next t₁.cacheMap _ _ found :=
      repeatRead_view (fun _ => 0) r.next { t₁ with nBytes := 0 }
    obtain ⟨code, copied, done⟩ := search.whole present
    rw [code]
    generalize found.2.2 = t₂ at *
    have count : t₂.nBytes.toNat = r.next.size := by
      rw [done.nBytes]
      exact (count_toNat (by show 0 + _ < _; omega)).trans (Nat.zero_add _)
    show t₂.nBytes.toNat ≤ _ ∧ (_ → t₂.nBytes.toNat < _)
    omega
  | case4 r t tempPage allocated status t₁ piece short =>
    cases Option.some.inj ends
    have count := readPiece_nBytes k cb s cache tempPage fits
    rw [piece] at count
    have most : t₁.nBytes.toNat ≤ t.nBytes.toNat + r.piece := count
    have within := r.piece_le.2
    show t₁.nBytes.toNat ≤ _ ∧ (_ → t₁.nBytes.toNat < _)
    refine ⟨by omega, ?_⟩
    intro long
    rw [Request.piece_long long] at most
    omega

/-! The last byte of a range that a read goes through is copied, wherever the file ends. -/

def Request.lastPlace (r : Request) : Nat := r.position + (r.size - 1)

theorem Advanced.lastPlace_eq {r r' : Request} {n : Nat} (advanced : Advanced r r' n) : r'.lastPlace = r.lastPlace := by
  have := advanced.position
  have := advanced.size
  have := advanced.more
  unfold Request.lastPlace
  omega

theorem Advanced.buffer_last {r r' : Request} {n : Nat} (advanced : Advanced r r' n) (some : 0 < r.size) :
    r'.buffer + (r'.size - 1) = r.buffer + (r.size - 1) := by
  have := advanced.buffer
  have := advanced.size
  have := advanced.more
  omega

/-- The byte that a transfer finds at a place: it reads its first page, whether there is a copy of it or not. -/
def carried (disk : Nat → BitVec 8) (m : CacheMap) (r : Request) (i : Nat) : BitVec 8 :=
  if i / 4096 = r.pageNumber then disk i else m.view disk i

theorem view_same {m' : CacheMap} {disk : Nat → BitVec 8} {i : Nat}
    (same : m'.copyOf (i / 4096) = m.copyOf (i / 4096)) : m'.view disk i = m.view disk i := by
  unfold CacheMap.view
  rw [same]

theorem ccpActualRead_tail {cache : Bool} {r : Request} {t : Transfer} {res : BitVec 32 × Transfer}
    (nonempty : 0 < r.size) (small : r.next.size < 2 ^ 31) (same : SameClusters m t.cacheMap)
    (uncached : cache = true → t.cacheMap.copyOf r.pageNumber = none)
    (ends : ccpActualRead k cb s cache r t = some res) (succeeds : succeeded res.1 = true) :
    res.2.buffer (r.buffer + (r.size - 1)) = carried (stored k cb s m) t.cacheMap r r.lastPlace := by
  unfold ccpActualRead at ends
  fun_induction ccpActual k (readPiece k cb s cache) false r t with
  | case1 r t missing => cases ends
  | case2 r t tempPage allocated status t₁ piece more found missing ih =>
    have long : r.readpart < r.size := Nat.lt_of_sub_pos more.1
    have step := Advanced.next long
    have first := readPiece_moved cb s same uncached allocated
    rw [piece] at first
    have search : Found r.next t₁.cacheMap _ _ found :=
      repeatRead_view (stored k cb s m) r.next { t₁ with nBytes := 0 }
    obtain ⟨n, advanced, copied, absent, part⟩ := search.stopped missing
    generalize found.2.1 = r', found.2.2 = t₂ at *
    have whole := step.trans advanced
    have kept : t₂.cacheMap = t₁.cacheMap := part.cacheMap
    have later : r.pageNumber < r'.pageNumber := Nat.lt_of_lt_of_le (Nat.lt_succ_self _) advanced.page_le
    have left : 0 < r'.size := whole.more (Nat.add_pos_left r.readpart_pos n)
    have least : r'.next.size < 2 ^ 31 := by
      have := advanced.size
      have : r'.next.size = r'.size - r'.readpart := rfl
      omega
    have rest := ih left least (kept ▸ same.grown first.grown) (fun _ => kept ▸ absent) ends
    have place : r'.lastPlace = r.lastPlace := whole.lastPlace_eq
    have rest : res.2.buffer (r'.buffer + (r'.size - 1)) = carried (stored k cb s m) t₂.cacheMap r' r'.lastPlace := rest
    have elsewhere : r.lastPlace / 4096 ≠ r.pageNumber :=
      Nat.ne_of_gt (Nat.lt_of_lt_of_le later (place ▸ r'.page_le_last))
    have copies : t₁.cacheMap.copyOf (r.lastPlace / 4096) = t.cacheMap.copyOf (r.lastPlace / 4096) :=
      first.grown.other _ elsewhere
    rw [← whole.buffer_last nonempty, rest, place, kept]
    unfold carried
    rw [if_neg elsewhere, ← view_same copies]
    split
    · rename_i here
      exact (CacheMap.view_none (here ▸ absent)).symm
    · rfl
  | case3 r t tempPage allocated status t₁ piece more found present =>
    cases Option.some.inj ends
    have long : r.readpart < r.size := Nat.lt_of_sub_pos more.1
    have step := Advanced.next long
    have above : r.pageNumber < r.last := Request.last_of_long long
    have first := readPiece_moved cb s same uncached allocated
    rw [piece] at first
    have search : Found r.next t₁.cacheMap _ _ found :=
      repeatRead_view (stored k cb s m) r.next { t₁ with nBytes := 0 }
    obtain ⟨code, copied, done⟩ := search.whole present
    rw [code]
    generalize found.2.2 = t₂ at *
    have kept : t₁.cacheMap.copyOf (r.lastPlace / 4096) = t.cacheMap.copyOf (r.lastPlace / 4096) :=
      first.grown.other _ (Nat.ne_of_gt above)
    have elsewhere : r.lastPlace / 4096 ≠ r.pageNumber := Nat.ne_of_gt above
    show t₂.buffer _ = _
    unfold carried
    rw [if_neg elsewhere, ← view_same kept, done.buffer, ← step.buffer_last nonempty, ← step.lastPlace_eq,
      memcpy_inside (by omega) (by have := more.1; omega)]
    congr 1
    unfold Request.lastPlace
    omega
  | case4 r t tempPage allocated status t₁ piece short =>
    cases Option.some.inj ends
    have first := readPiece_moved cb s same uncached allocated
    rw [piece] at first
    have within : r.size ≤ r.readpart := by
      have : r.next.size = r.size - r.readpart := rfl
      unfold Request.More at short
      omega
    have only : r.lastPlace / 4096 = r.pageNumber := Request.last_of_short within
    unfold carried
    rw [if_pos only, first.buffer succeeds, Request.piece_short within, memcpy_inside (by omega) (by omega)]
    congr 1
    unfold Request.lastPlace
    omega

/-! Where a read ends, and what it has returned by then. -/

/-- A read that has returned the bytes up to a place of the file, and no others. -/
structure Returned (V : Nat → BitVec 8) (r : Request) (stop : Nat) (b : Buffer) (res : BitVec 32 × Transfer) : Prop where
  succeeds : succeeded res.1 = true
  nBytes : res.2.nBytes.toNat = stop - r.position
  buffer : res.2.buffer = memcpy b r.buffer V r.position (stop - r.position)

/-- The byte that a read of the file finds at a place. -/
def shown (disk : Nat → BitVec 8) (file : File) (r : Request) (i : Nat) : BitVec 8 :=
  if file.readThrough = true ∧ i / 4096 = r.pageNumber then disk i else file.cacheMap.view disk i

/-- The first page of a range that a read takes from the backing store. -/
structure FirstTaken (file : File) (r : Request) (p : Nat) : Prop where
  above : r.pageNumber ≤ p
  below : p ≤ r.last
  taken : FromStore file r p
  before : ∀ q, r.pageNumber ≤ q → q < p → ¬ FromStore file r q

/-- A read that ends with a page from the backing store: nothing is left then, or so much that it is taken for a
negative number. -/
structure EndsWith (k : Resources) (cb : Callbacks σ) (file : File) (r : Request) (stop p : Nat) : Prop where
  allocated : (k.tempPage p).isSome = true
  clusters : file.cacheMap.clustersPerPage ≠ 0
  read : succeeded (pageStatus k cb file.cacheMap.clustersPerPage p) = true
  stops : stop = min (r.position + r.size) ((p + 1) * 4096)
  left : stop = r.position + r.size ∨ 2 ^ 31 ≤ r.position + r.size - stop

/-- A read that has come to the first page that it takes from the backing store. -/
structure Taken (disk : Nat → BitVec 8) (file : File) (r : Request) (b : Buffer) (r' : Request) (n : Nat)
    (t : Transfer) : Prop where
  advanced : Advanced r r' n
  first : FirstTaken file r r'.pageNumber
  cacheMap : t.cacheMap = file.cacheMap
  buffer : t.buffer = memcpy b r.buffer (shown disk file r) r.position n
  nBytes : t.nBytes.toNat = n

theorem FirstTaken.unique {file : File} {r : Request} {p q : Nat} (first : FirstTaken file r p)
    (other : FirstTaken file r q) : p = q := by
  rcases Nat.lt_trichotomy p q with less | same | more
  · exact absurd first.taken (other.before p first.above less)
  · exact same
  · exact absurd other.taken (first.before q other.above more)

theorem shown_taken {disk : Nat → BitVec 8} {file : File} {r : Request} {i : Nat}
    (taken : FromStore file r (i / 4096)) : shown disk file r i = disk i := by
  unfold shown
  split
  · rfl
  · rename_i cached
    exact CacheMap.view_none (taken.resolve_right cached)

theorem memcpy_inj {b V W : Buffer} {d c n : Nat} (same : memcpy b d V c n = memcpy b d W c n) (j : Nat) (below : j < n) :
    V (c + j) = W (c + j) := by
  have here := congrFun same (d + j)
  rw [memcpy_inside (by omega) (by omega), memcpy_inside (by omega) (by omega)] at here
  have index : d + j - d = j := by omega
  rwa [index] at here

theorem Returned.unique {V W : Nat → BitVec 8} {r : Request} {stop stop' : Nat} {b : Buffer} {res : BitVec 32 × Transfer}
    (returned : Returned V r stop b res) (other : Returned W r stop' b res) (above : r.position ≤ stop)
    (above' : r.position ≤ stop') : stop = stop' ∧ ∀ i, r.position ≤ i → i < stop → V i = W i := by
  have whole : stop - r.position = stop' - r.position := returned.nBytes.symm.trans other.nBytes
  refine ⟨by omega, ?_⟩
  intro i from_ below
  have same := returned.buffer.symm.trans other.buffer
  rw [← whole] at same
  have here := memcpy_inj same (i - r.position) (Nat.sub_lt_sub_right from_ below)
  have index : r.position + (i - r.position) = i := Nat.add_sub_cancel' from_
  rwa [index] at here

section Transfer

variable {file : File} {r r' : Request} {b : Buffer} {n stop : Nat} {t : Transfer} {V : Nat → BitVec 8}
  {cache : Bool} {res : BitVec 32 × Transfer}

theorem ccpActualRead_once (once : ¬ r'.More) :
    ccpActualRead k cb s cache r' t = (k.tempPage r'.pageNumber).map fun page => readPiece k cb s cache r' page t := by
  unfold ccpActualRead
  rw [ccpActual]
  cases k.tempPage r'.pageNumber with
  | none => rfl
  | some page => simp only [dif_neg once, Option.map_some]

/-- One page from the backing store is added to what was there. -/
theorem Taken.piece (cache : Bool) (taken : Taken (stored k cb s file.cacheMap) file r b r' n t) (fits : r.size < 4294967296)
    (uncached : cache = true → file.cacheMap.copyOf r'.pageNumber = none) {page : Buffer}
    (allocated : k.tempPage r'.pageNumber = some page) :
    (readPiece k cb s cache r' page t).1 = pageStatus k cb file.cacheMap.clustersPerPage r'.pageNumber ∧
      (succeeded (readPiece k cb s cache r' page t).1 = true →
        (readPiece k cb s cache r' page t).2.nBytes.toNat = n + r'.piece ∧
        (readPiece k cb s cache r' page t).2.buffer =
          memcpy b r.buffer (shown (stored k cb s file.cacheMap) file r) r.position (n + r'.piece)) := by
  have moved := readPiece_moved cb s (m := file.cacheMap) (t := t)
    (taken.cacheMap ▸ .refl _) (fun cached => taken.cacheMap ▸ uncached cached) allocated
  have size := taken.advanced.size
  have within := r'.piece_le
  have own : memcpy t.buffer r'.buffer (stored k cb s file.cacheMap) r'.position r'.piece =
      memcpy t.buffer r'.buffer (shown (stored k cb s file.cacheMap) file r) r'.position r'.piece := by
    apply memcpy_congr
    intro j below
    have number : (r'.position + j) / 4096 = r'.pageNumber := by
      unfold Request.position
      omega
    exact (shown_taken (number ▸ taken.first.taken)).symm
  refine ⟨moved.status, fun succeeds => ⟨?_, ?_⟩⟩
  · rw [moved.nBytes, if_pos succeeds, count_toNat (by have := taken.nBytes; omega), taken.nBytes]
  · rw [moved.buffer succeeds, own, taken.buffer, taken.advanced.position, taken.advanced.buffer]
    exact memcpy_memcpy

theorem Request.piece_stops (r : Request) :
    r.position + r.piece = min (r.position + r.size) ((r.pageNumber + 1) * 4096) := by
  have := r.pageOffset.isLt
  unfold Request.position Request.piece Request.readpart pageSize
  split <;> omega

theorem Taken.stops (taken : Taken (stored k cb s file.cacheMap) file r b r' n t) :
    r.position + (n + r'.piece) = min (r.position + r.size) ((r'.pageNumber + 1) * 4096) := by
  have stops := r'.piece_stops
  have := taken.advanced.position
  have := taken.advanced.size
  omega

/-- What is left behind the page is nothing, or so much that it is taken for a negative number. -/
theorem Taken.once_iff (taken : Taken (stored k cb s file.cacheMap) file r b r' n t)
    (stops : stop = min (r.position + r.size) ((r'.pageNumber + 1) * 4096)) :
    ¬ r'.More ↔ stop = r.position + r.size ∨ 2 ^ 31 ≤ r.position + r.size - stop := by
  have := taken.stops
  have := taken.advanced.position
  have := taken.advanced.size
  have : r'.next.size = r'.size - r'.readpart := rfl
  unfold Request.More Request.piece at *
  split at * <;> omega

theorem Taken.returns (taken : Taken (stored k cb s file.cacheMap) file r b r' n t) (fits : r.size < 4294967296)
    (uncached : cache = true → file.cacheMap.copyOf r'.pageNumber = none)
    (ends : EndsWith k cb file r stop r'.pageNumber)
    (bytes : ∀ i, r.position ≤ i → i < stop → shown (stored k cb s file.cacheMap) file r i = V i) :
    ∃ res, ccpActualRead k cb s cache r' t = some res ∧ Returned V r stop b res := by
  obtain ⟨page, allocated⟩ := Option.isSome_iff_exists.mp ends.allocated
  obtain ⟨status, moved⟩ := taken.piece cache fits uncached allocated
  have succeeds : succeeded (readPiece k cb s cache r' page t).1 = true := status ▸ ends.read
  obtain ⟨nBytes, buffer⟩ := moved succeeds
  have stops := taken.stops
  have whole : n + r'.piece = stop - r.position := by
    have := ends.stops
    omega
  refine ⟨_, by rw [ccpActualRead_once ((taken.once_iff ends.stops).mpr ends.left), allocated]; rfl, succeeds, ?_, ?_⟩
  · rw [nBytes, whole]
  · rw [buffer, whole]
    apply memcpy_congr
    intro j below
    exact bytes _ (Nat.le_add_right _ _) (by omega)

/-- A transfer that begins with the first page to be taken finds what the read shows. -/
theorem Taken.carried_eq {disk : Nat → BitVec 8} (taken : Taken disk file r b r' n t) (i : Nat) :
    carried disk file.cacheMap r' i = shown disk file r i := by
  unfold carried
  split
  · rename_i here
    exact (shown_taken (here ▸ taken.first.taken)).symm
  · rename_i elsewhere
    unfold shown
    split
    · rename_i through
      have first : FirstTaken file r r.pageNumber :=
        ⟨Nat.le_refl _, r.page_le_last, .inr ⟨through.1, rfl⟩,
          fun q above below => absurd below (Nat.not_lt.mpr above)⟩
      exact absurd (through.2.trans (first.unique taken.first)) elsewhere
    · rfl

/-- A read that goes on after the page counts too little, or copies what lies behind the place. -/
theorem Taken.once (taken : Taken (stored k cb s file.cacheMap) file r b r' n t) (fits : r.size < 4294967296)
    (uncached : cache = true → file.cacheMap.copyOf r'.pageNumber = none)
    (unread : b (r.buffer + (r.size - 1)) ≠ shown (stored k cb s file.cacheMap) file r r.lastPlace)
    (runs : ccpActualRead k cb s cache r' t = some res) (returned : Returned V r stop b res) : ¬ r'.More := by
  intro more
  have long : r'.readpart < r'.size := Nat.lt_of_sub_pos more.1
  have size := taken.advanced.size
  have nonempty : 0 < r.size := by omega
  have counted := (ccpActualRead_counted (by have := taken.nBytes; omega) runs).2 long
  have tail := ccpActualRead_tail (m := file.cacheMap) (by omega) more.2 (taken.cacheMap ▸ .refl _)
    (fun cached => taken.cacheMap ▸ uncached cached) runs returned.succeeds
  have short : stop - r.position < r.size := by
    rw [← returned.nBytes]
    have := taken.nBytes
    omega
  rw [taken.advanced.buffer_last nonempty, returned.buffer, memcpy_outside (by omega), taken.cacheMap,
    taken.carried_eq, taken.advanced.lastPlace_eq] at tail
  exact unread tail

theorem Taken.ends (taken : Taken (stored k cb s file.cacheMap) file r b r' n t) (fits : r.size < 4294967296)
    (uncached : cache = true → file.cacheMap.copyOf r'.pageNumber = none) (above : r.position ≤ stop)
    (unread : b (r.buffer + (r.size - 1)) ≠ shown (stored k cb s file.cacheMap) file r r.lastPlace)
    {read : CacheRead σ} (reads : cb.actualRead = some read) (fails : succeeded k.unset = false)
    (runs : ccpActualRead k cb s cache r' t = some res) (returned : Returned V r stop b res) :
    EndsWith k cb file r stop r'.pageNumber ∧
      ∀ i, r.position ≤ i → i < stop → shown (stored k cb s file.cacheMap) file r i = V i := by
  have once := taken.once fits uncached unread runs returned
  rw [ccpActualRead_once once] at runs
  obtain ⟨page, allocated, rfl⟩ := Option.map_eq_some_iff.mp runs
  obtain ⟨status, moved⟩ := taken.piece cache fits uncached allocated
  obtain ⟨nBytes, buffer⟩ := moved returned.succeeds
  have stops := taken.stops
  have carried : Returned (shown (stored k cb s file.cacheMap) file r) r (r.position + (n + r'.piece)) b
      (readPiece k cb s cache r' page t) := by
    refine ⟨returned.succeeds, ?_, ?_⟩
    · rw [nBytes, Nat.add_sub_cancel_left]
    · rw [buffer, Nat.add_sub_cancel_left]
  obtain ⟨whole, bytes⟩ := carried.unique returned (Nat.le_add_right _ _) above
  rw [whole] at stops bytes
  have succeeds : succeeded (pageStatus k cb file.cacheMap.clustersPerPage r'.pageNumber) = true :=
    status ▸ returned.succeeds
  refine ⟨⟨Option.isSome_of_eq_some allocated, ?_, succeeds, stops, (taken.once_iff stops).mp once⟩, bytes⟩
  intro nothing
  have kept : pageStatus k cb 0 r'.pageNumber = k.unset := pageStatus_nothing (k := k) reads k.unset _
  rw [nothing, kept, fails] at succeeds
  cases succeeds

end Transfer

/-- What is done about the result of a transfer: a read through the cache is told of as such, and is counted. -/
def finish (file : File) (res : BitVec 32 × Transfer) : BitVec 32 × Transfer :=
  if file.readThrough then res
  else (if succeeded res.1 then Status.cached.code else res.1,
    { res.2 with cacheMap := countRebuild res.2.cacheMap })

theorem finish_returned {file : File} {V : Nat → BitVec 8} {r : Request} {stop : Nat} {b : Buffer}
    {res : BitVec 32 × Transfer} : Returned V r stop b (finish file res) ↔ Returned V r stop b res := by
  have told : succeeded (finish file res).1 = succeeded res.1 := by
    unfold finish
    split
    · rfl
    · cases succeeds : succeeded res.1 with
      | true => rfl
      | false => exact succeeds
  have nBytes : (finish file res).2.nBytes = res.2.nBytes := by
    unfold finish
    split <;> rfl
  have buffer : (finish file res).2.buffer = res.2.buffer := by
    unfold finish
    split <;> rfl
  constructor
  · rintro ⟨succeeds, count, bytes⟩
    exact ⟨told ▸ succeeds, nBytes ▸ count, buffer ▸ bytes⟩
  · rintro ⟨succeeds, count, bytes⟩
    exact ⟨told.symm ▸ succeeds, nBytes.symm ▸ count, buffer.symm ▸ bytes⟩

/-- How a read begins: every page of the range has a copy, or it comes to the first that it has to take. -/
inductive Begun (k : Resources) (cb : Callbacks σ) (s : σ) (file : File) (r : Request) (b : Buffer) :
    Option (BitVec 32 × Transfer) → Prop
  | copied {res : BitVec 32 × Transfer} (none : ∀ p, r.pageNumber ≤ p → p ≤ r.last → ¬ FromStore file r p)
      (told : res.1 = Status.success.code)
      (returned : Returned (shown (stored k cb s file.cacheMap) file r) r (r.position + r.size) b res) :
      Begun k cb s file r b (some res)
  | taken {r' : Request} {n : Nat} {t : Transfer} (taken : Taken (stored k cb s file.cacheMap) file r b r' n t) :
      Begun k cb s file r b ((ccpActualRead k cb s (!file.readThrough) r' t).map (finish file))

theorem asserted_iff {checked : Bool} {n : Nat} :
    (checked && decide (pageSize * 20 ≤ n)) = true ↔ ¬ (checked = true → n < 20 * pageSize) := by
  cases checked with
  | false => simp
  | true =>
    simp only [Bool.true_and, decide_eq_true_eq, forall_const]
    omega

/-- The assertion of a checked build stops a read of too many bytes. -/
theorem ccCacheReadFile_stopped {checked : Bool} {file : File} {offset length nBytesRead : BitVec 32} {b : Buffer}
    (stops : ¬ (checked = true → length.toNat < 20 * pageSize)) :
    ccCacheReadFile checked k cb s file offset b length nBytesRead = none := if_pos (asserted_iff.mpr stops)

theorem ccCacheReadFile_begun (k : Resources) (cb : Callbacks σ) (s : σ) {checked : Bool} (file : File)
    (offset : BitVec 32) {length : BitVec 32} (b : Buffer)
    (asserted : checked = true → length.toNat < 20 * pageSize) :
    Begun k cb s file (Request.start offset length) b (ccCacheReadFile checked k cb s file offset b length 0) := by
  have asserted : ¬ (checked && decide (pageSize * 20 ≤ length.toNat)) = true :=
    fun stops => asserted_iff.mp stops asserted
  unfold ccCacheReadFile
  have size : (Request.start offset length).size = length.toNat := rfl
  have bound := length.isLt
  rw [← size] at asserted bound
  generalize Request.start offset length = r at *
  dsimp only
  rw [if_neg asserted]
  by_cases through : file.readThrough = true
  · have first : FirstTaken file r r.pageNumber :=
      ⟨Nat.le_refl _, r.page_le_last, .inr ⟨through, rfl⟩, fun q above below => absurd below (Nat.not_lt.mpr above)⟩
    have finished : finish file = id := by
      funext res
      unfold finish
      exact if_pos through
    have begun : Begun k cb s file r b _ :=
      .taken (t := { cacheMap := file.cacheMap, buffer := b, nBytes := 0 })
        ⟨.refl r, first, rfl, (memcpy_zero ..).symm, rfl⟩
    rw [finished, Option.map_id, id, through] at begun
    rw [if_pos through]
    exact begun
  · have cached : file.readThrough = false := by simpa using through
    have missing : ∀ p, FromStore file r p ↔ file.cacheMap.copyOf p = none := by
      intro p
      simp only [FromStore, through, Bool.false_eq_true, false_and, or_false]
    have view : shown (stored k cb s file.cacheMap) file r = file.cacheMap.view (stored k cb s file.cacheMap) := by
      funext i
      unfold shown
      exact if_neg fun both => through both.1
    have search := repeatRead_view (stored k cb s file.cacheMap) r { cacheMap := file.cacheMap, buffer := b, nBytes := 0 }
    have reached : ccpFindAndReadWrite false r { cacheMap := file.cacheMap, buffer := b, nBytes := 0 } =
      repeatRead false r { cacheMap := file.cacheMap, buffer := b, nBytes := 0 } := rfl
    have zero : (0 : BitVec 32).toNat = 0 := rfl
    rw [if_neg through, reached]
    generalize repeatRead false r { cacheMap := file.cacheMap, buffer := b, nBytes := 0 } = outcome at search ⊢
    cases search with
    | @all r' t' copied done =>
      have different : ¬ Status.success.code = Status.notFound.code := by decide
      have after : afterSearch (ccpActualRead k cb s true) (Status.success.code, r', t') =
          some (Status.success.code, { t' with cacheMap := countRebuild t'.cacheMap }) := by
        simp only [afterSearch, if_neg different, Option.bind_eq_bind, Option.bind_some]
      rw [after]
      refine .copied (fun p above below => mt (missing p).mp (copied p above below)) rfl
        ⟨(by decide : succeeded Status.success.code = true), ?_, ?_⟩
      · show t'.nBytes.toNat = _
        rw [done.nBytes, count_toNat (by rw [zero]; omega), zero]
        omega
      · show t'.buffer = _
        rw [done.buffer, view, Nat.add_sub_cancel_left]
    | @missing r' t' n advanced copied absent part =>
      have after : afterSearch (ccpActualRead k cb s true) (Status.notFound.code, r', t') =
          (ccpActualRead k cb s (!file.readThrough) r' t').map (finish file) := by
        rw [cached]
        simp only [afterSearch, if_true, Option.bind_eq_bind, Option.bind_map, Bool.not_false]
        cases ccpActualRead k cb s true r' t' with
        | none => rfl
        | some res => simp [finish, cached]
      have first : FirstTaken file r r'.pageNumber :=
        ⟨advanced.page_le, advanced.last_eq ▸ r'.page_le_last, (missing _).mpr absent,
          fun q above below => mt (missing q).mp (copied q above below)⟩
      rw [after]
      refine .taken ⟨advanced, first, part.cacheMap, ?_, ?_⟩
      · rw [part.buffer, view]
      · rw [part.nBytes, count_toNat (by have := advanced.size; rw [zero]; omega), zero]
        omega

theorem ccCacheReadFile_told {checked : Bool} {file : File} {offset length : BitVec 32} {b : Buffer}
    {res : BitVec 32 × Transfer} (other : k.unset ≠ Status.endOfFile.code)
    (ends : ccCacheReadFile checked k cb s file offset b length 0 = some res) : res.1 ≠ Status.endOfFile.code := by
  by_cases asserted : checked = true → length.toNat < 20 * pageSize
  · have start := ccCacheReadFile_begun k cb s file offset b asserted
    rw [ends] at start
    generalize outcome_eq : some res = outcome at start
    cases start with
    | copied none told all =>
      cases outcome_eq
      rw [told]
      decide
    | taken taken =>
      obtain ⟨res', runs, rfl⟩ := Option.map_eq_some_iff.mp outcome_eq.symm
      have told := ccpActualRead_told other runs
      unfold finish
      split
      · exact told
      · show (if succeeded res'.1 then Status.cached.code else res'.1) ≠ _
        split
        · decide
        · exact told
  · rw [ccCacheReadFile_stopped asserted] at ends
    cases ends

/-- What it takes for a read to return the bytes up to a place of the file: no page is taken from the backing store, or the
read ends with the first one. -/
structure ReadsUpTo (checked : Bool) (k : Resources) (cb : Callbacks σ) (s : σ) (file : File) (r : Request)
    (V : Nat → BitVec 8) (stop : Nat) : Prop where
  asserted : checked = true → r.size < 20 * pageSize
  ends : (∀ p, r.pageNumber ≤ p → p ≤ r.last → ¬ FromStore file r p) ∧ stop = r.position + r.size ∨
    ∃ p, FirstTaken file r p ∧ EndsWith k cb file r stop p
  bytes : ∀ i, r.position ≤ i → i < stop → shown (stored k cb s file.cacheMap) file r i = V i

theorem EndsWith.withUnset {file : File} {r : Request} {stop p : Nat} (unset : BitVec 32) :
    EndsWith (k.withUnset unset) cb file r stop p ↔ EndsWith k cb file r stop p := by
  constructor
  · rintro ⟨allocated, clusters, read, stops, left⟩
    exact ⟨allocated, clusters, pageStatus_withUnset cb unset p clusters ▸ read, stops, left⟩
  · rintro ⟨allocated, clusters, read, stops, left⟩
    exact ⟨allocated, clusters, (pageStatus_withUnset cb unset p clusters).symm ▸ read, stops, left⟩

theorem FirstTaken.uncached {file : File} {r : Request} {p : Nat} (first : FirstTaken file r p)
    (cached : (!file.readThrough) = true) : file.cacheMap.copyOf p = none := by
  apply first.taken.resolve_right
  rintro ⟨through, _⟩
  rw [through] at cached
  cases cached

/-- Where a read has returned the bytes up to a place, though an unset status is a failure and the caller's buffer differs
from what a longer read copies last. -/
theorem Begun.ends {file : File} {r : Request} {b : Buffer} {res : BitVec 32 × Transfer} {V : Nat → BitVec 8} {stop : Nat}
    {read : CacheRead σ} (reads : cb.actualRead = some read) (fails : succeeded k.unset = false)
    (unread : b (r.buffer + (r.size - 1)) ≠ shown (stored k cb s file.cacheMap) file r r.lastPlace)
    (fits : r.size < 4294967296) (above : r.position ≤ stop) (begun : Begun k cb s file r b (some res))
    (returned : Returned V r stop b res) :
    ((∀ p, r.pageNumber ≤ p → p ≤ r.last → ¬ FromStore file r p) ∧ stop = r.position + r.size ∨
        ∃ p, FirstTaken file r p ∧ EndsWith k cb file r stop p) ∧
      ∀ i, r.position ≤ i → i < stop → shown (stored k cb s file.cacheMap) file r i = V i := by
  generalize outcome_eq : some res = outcome at begun
  cases begun with
  | copied none told all =>
    cases outcome_eq
    obtain ⟨whole, bytes⟩ := all.unique returned (Nat.le_add_right _ _) above
    rw [whole] at bytes
    exact ⟨.inl ⟨none, whole.symm⟩, bytes⟩
  | taken taken =>
    obtain ⟨res', runs, rfl⟩ := Option.map_eq_some_iff.mp outcome_eq.symm
    obtain ⟨ends, bytes⟩ := taken.ends fits taken.first.uncached above unread reads fails runs
      (finish_returned.mp returned)
    exact ⟨.inr ⟨_, taken.first, ends⟩, bytes⟩

/-- Whatever the caller's buffer and an unset variable hold, a read returns the bytes up to a place of the file. -/
theorem ccCacheReadFile_exact {checked : Bool} {file : File} {offset length : BitVec 32} {V : Nat → BitVec 8}
    {stop : Nat} {read : CacheRead σ} (reads : cb.actualRead = some read) (above : offset.toNat ≤ stop) :
    (∀ unset b, ∃ res, ccCacheReadFile checked (k.withUnset unset) cb s file offset b length 0 = some res ∧
      Returned V (Request.start offset length) stop b res) ↔
    ReadsUpTo checked k cb s file (Request.start offset length) V stop := by
  have fits : (Request.start offset length).size < 4294967296 := length.isLt
  rw [← Request.start_position offset length] at above
  have begun (unset : BitVec 32) (b : Buffer) (asserted : checked = true → length.toNat < 20 * pageSize) :=
    ccCacheReadFile_begun (k.withUnset unset) cb s file offset b asserted
  constructor
  · intro returns
    have asserted : checked = true → length.toNat < 20 * pageSize := by
      by_contra stops
      obtain ⟨res, runs, _⟩ := returns 0 fun _ => 0
      rw [ccCacheReadFile_stopped stops] at runs
      cases runs
    -- An unset status that fails, and a buffer that differs from the byte that a longer read copies last.
    let unset := Status.unsuccessful.code
    let copied := shown (stored k cb s file.cacheMap) file (Request.start offset length)
      (Request.start offset length).lastPlace
    have unread : copied + 1 ≠ shown (stored (k.withUnset unset) cb s file.cacheMap) file (Request.start offset length)
        (Request.start offset length).lastPlace := by
      rw [stored_withUnset]
      intro same
      have odd : ∀ x : BitVec 8, x + 1 ≠ x := by decide
      exact odd copied same
    obtain ⟨res, runs, returned⟩ := returns unset fun _ => copied + 1
    have start := begun unset (fun _ => copied + 1) asserted
    rw [runs] at start
    obtain ⟨ends, bytes⟩ := start.ends reads (by decide : succeeded unset = false) unread fits above returned
    simp only [EndsWith.withUnset, stored_withUnset] at ends bytes
    exact ⟨asserted, ends, bytes⟩
  · rintro ⟨asserted, ends, bytes⟩ unset b
    have start := begun unset b asserted
    generalize ccCacheReadFile checked (k.withUnset unset) cb s file offset b length 0 = outcome at start ⊢
    rw [← stored_withUnset unset] at bytes
    cases start with
    | @copied res none told returned =>
      rcases ends with ⟨_, rfl⟩ | ⟨p, first, _⟩
      · refine ⟨res, rfl, returned.succeeds, returned.nBytes, ?_⟩
        rw [returned.buffer]
        apply memcpy_congr
        intro j below
        exact bytes _ (Nat.le_add_right _ _) (by omega)
      · exact absurd first.taken (none _ first.above first.below)
    | taken taken =>
      rcases ends with ⟨none, _⟩ | ⟨p, first, ends⟩
      · exact absurd taken.first.taken (none _ taken.first.above taken.first.below)
      · rw [first.unique taken.first, ← EndsWith.withUnset unset] at ends
        obtain ⟨res, runs, returned⟩ := taken.returns fits taken.first.uncached ends bytes
        exact ⟨finish file res, by rw [runs]; rfl, finish_returned.mpr returned⟩

end Gr8os.Cc
