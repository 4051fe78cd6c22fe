import Mathlib.Data.Finset.Card
import Mathlib.Order.Interval.Finset.Nat
import Gr8os.Cc.Contents

/-! Requests that advance through a file page by page, and what the search and the transfers do to it. -/
namespace Gr8os.Cc

open Bytes Slots

namespace Request

def position (r : Request) : Nat := r.pageNumber * 4096 + r.pageOffset

/-- The page with the last byte of the request. -/
def last (r : Request) : Nat := (r.position + (r.size - 1)) / 4096

theorem page_eq (r : Request) : r.position / 4096 = r.pageNumber := by
  have := r.pageOffset.isLt
  unfold position
  omega

theorem next_position (r : Request) : r.next.position = r.position + r.readpart := by
  have := r.pageOffset.isLt
  simp only [position, next, readpart, pageSize]
  omega

end Request

/-- The request after some bytes are done: when any are done, a page is done and there are more. -/
structure Advanced (r r' : Request) (n : Nat) : Prop where
  position : r'.position = r.position + n
  buffer : r'.buffer = r.buffer + n
  size : r'.size + n = r.size
  more : 0 < n → 0 < r'.size
  page : 0 < n → r.pageNumber < r'.pageNumber

namespace Advanced

variable {r r' r'' : Request} {n l : Nat}

theorem refl (r : Request) : Advanced r r 0 where
  position := (Nat.add_zero _).symm
  buffer := rfl
  size := rfl
  more some := absurd some (Nat.lt_irrefl 0)
  page some := absurd some (Nat.lt_irrefl 0)

theorem next (longer : r.readpart < r.size) : Advanced r r.next r.readpart where
  position := r.next_position
  buffer := rfl
  size := Nat.sub_add_cancel (Nat.le_of_lt longer)
  more _ := Nat.sub_pos_of_lt longer
  page _ := Nat.lt_succ_self _

theorem page_le (advanced : Advanced r r' n) : r.pageNumber ≤ r'.pageNumber := by
  rw [← r.page_eq, ← r'.page_eq, advanced.position]
  exact Nat.div_le_div_right (Nat.le_add_right ..)

theorem trans (first : Advanced r r' n) (second : Advanced r' r'' l) : Advanced r r'' (n + l) where
  position := by rw [second.position, first.position, Nat.add_assoc]
  buffer := by rw [second.buffer, first.buffer, Nat.add_assoc]
  size := by
    have := first.size
    have := second.size
    omega
  more some := by
    have := first.more
    have := second.more
    have := second.size
    omega
  page some := by
    have := first.page
    have := second.page
    have := first.page_le
    have := second.page_le
    omega

theorem last_eq (advanced : Advanced r r' n) : r'.last = r.last := by
  have := advanced.position
  have := advanced.size
  have := advanced.more
  have same : r'.position + (r'.size - 1) = r.position + (r.size - 1) := by omega
  simp only [Request.last, same]

end Advanced

namespace Request

theorem page_le_last (r : Request) : r.pageNumber ≤ r.last := by
  rw [← r.page_eq]
  exact Nat.div_le_div_right (Nat.le_add_right ..)

theorem touches {r : Request} {i : Nat} (above : r.position ≤ i) (below : i < r.position + r.size) :
    r.pageNumber ≤ i / 4096 ∧ i / 4096 ≤ r.last := by
  have first : r.position / 4096 ≤ i / 4096 := Nat.div_le_div_right above
  have last : i / 4096 ≤ (r.position + (r.size - 1)) / 4096 := Nat.div_le_div_right (by omega)
  rw [r.page_eq] at first
  exact ⟨first, last⟩

theorem last_of_short {r : Request} (short : r.size ≤ r.readpart) : r.last = r.pageNumber := by
  have := r.pageOffset.isLt
  unfold last position
  unfold readpart pageSize at short
  omega

theorem last_of_long {r : Request} (long : r.readpart < r.size) : r.pageNumber < r.last := by
  have := r.pageOffset.isLt
  unfold last position
  unfold readpart pageSize at long
  omega

end Request

/-- A copy within a page, seen as a copy within the file. -/
theorem memcpy_page {temp V u : Buffer} {p off c n i : Nat} (here : i / 4096 = p)
    (same : temp (i % 4096) = V i) :
    memcpy temp off u c n (i % 4096) = memcpy V (p * 4096 + off) u c n i := by
  by_cases inside : off ≤ i % 4096 ∧ i % 4096 < off + n
  · rw [memcpy_inside inside.1 inside.2, memcpy_inside (by omega) (by omega)]
    have index : i % 4096 - off = i - (p * 4096 + off) := by omega
    rw [index]
  · rw [memcpy_outside (by omega), memcpy_outside (by omega), same]

theorem memcpy_elsewhere {V u : Buffer} {p off c n i : Nat} (fits : off + n ≤ 4096) (elsewhere : i / 4096 ≠ p) :
    memcpy V (p * 4096 + off) u c n i = V i := by
  apply memcpy_outside
  omega

/-- The end of a search: the whole request was done, or a page of it was not found. -/
inductive Found (r : Request) (m : CacheMap) (Done : Transfer → Prop) (Part : Nat → Transfer → Prop) :
    BitVec 32 × Request × Transfer → Prop
  | all {r' : Request} {t' : Transfer} (copied : ∀ p, r.pageNumber ≤ p → p ≤ r.last → m.copyOf p ≠ none)
      (done : Done t') : Found r m Done Part (Status.success.code, r', t')
  | missing {r' : Request} {t' : Transfer} {n : Nat} (advanced : Advanced r r' n)
      (copied : ∀ p, r.pageNumber ≤ p → p < r'.pageNumber → m.copyOf p ≠ none)
      (absent : m.copyOf r'.pageNumber = none) (done : Part n t') :
      Found r m Done Part (Status.notFound.code, r', t')

section Found

variable {r : Request} {m m' : CacheMap} {Done Done' : Transfer → Prop} {Part Part' : Nat → Transfer → Prop}
  {res : BitVec 32 × Request × Transfer}

theorem Found.here (absent : m.copyOf r.pageNumber = none) {t : Transfer} (done : Part 0 t) :
    Found r m Done Part (Status.notFound.code, r, t) :=
  .missing (.refl r) (fun _ above below => absurd below (Nat.not_lt.mpr above)) absent done

theorem Found.only {i : Request} (short : r.size ≤ r.readpart) (copied : m.copyOf r.pageNumber ≠ none) {t : Transfer}
    (done : Done t) : Found r m Done Part (Status.success.code, i, t) := by
  apply Found.all _ done
  intro p above below
  have only := Request.last_of_short short
  have same : p = r.pageNumber := by omega
  rwa [same]

theorem Found.stopped (search : Found r m Done Part res) (missing : res.1 = Status.notFound.code) :
    ∃ n, Advanced r res.2.1 n ∧ (∀ p, r.pageNumber ≤ p → p < res.2.1.pageNumber → m.copyOf p ≠ none) ∧
      m.copyOf res.2.1.pageNumber = none ∧ Part n res.2.2 := by
  cases search with
  | all => cases missing
  | missing advanced copied absent done => exact ⟨_, advanced, copied, absent, done⟩

theorem Found.whole (search : Found r m Done Part res) (present : ¬res.1 = Status.notFound.code) :
    res.1 = Status.success.code ∧ (∀ p, r.pageNumber ≤ p → p ≤ r.last → m.copyOf p ≠ none) ∧ Done res.2.2 := by
  cases search with
  | all copied done => exact ⟨rfl, copied, done⟩
  | missing => exact absurd rfl present

/-- A page that is copied, then a search from the next page on. -/
theorem Found.after (long : r.readpart < r.size) (copied : m.copyOf r.pageNumber ≠ none)
    (same : ∀ p, m'.copyOf p = none ↔ m.copyOf p = none) (rest : Found r.next m' Done' Part' res)
    (all : ∀ t, Done' t → Done t) (part : ∀ n t, Part' n t → Part (r.readpart + n) t) : Found r m Done Part res := by
  have step := Advanced.next long
  have later : ∀ p, r.pageNumber ≤ p → p = r.pageNumber ∨ r.next.pageNumber ≤ p := by
    intro p above
    show _ ∨ r.pageNumber + 1 ≤ p
    omega
  cases rest with
  | all others done =>
    apply Found.all _ (all _ done)
    intro p above below
    cases later p above with
    | inl first => rwa [first]
    | inr further => exact mt (same p).mpr (others p further (Nat.le_trans below (Nat.le_of_eq step.last_eq.symm)))
  | missing advanced others absent done =>
    apply Found.missing (step.trans advanced) _ ((same _).mp absent) (part _ _ done)
    intro p above below
    cases later p above with
    | inl first => rwa [first]
    | inr further => exact mt (same p).mpr (others p further below)

end Found

/-- The bytes of the file that a request asks for are copied into the caller's buffer. -/
structure ReadBy (V : Buffer) (r : Request) (t : Transfer) (n : Nat) (t' : Transfer) : Prop where
  cacheMap : t'.cacheMap = t.cacheMap
  buffer : t'.buffer = memcpy t.buffer r.buffer V r.position n
  nBytes : t'.nBytes = t.nBytes + BitVec.ofNat 32 n

theorem getD_of_findIdx? {m : CacheMap} {p i : Nat}
    (found : m.pageCacheMap.findIdx? (CachedPage.holds p) = some i) :
    m.copyOf p = some (m.pageCacheMap.getD i {}) := by
  obtain ⟨page, here, _⟩ := get_of_findIdx? found
  unfold CacheMap.copyOf
  rw [find?_of_findIdx? found, List.getD_eq_getElem?_getD, here]
  rfl

theorem piece_le (r : Request) (short : r.size ≤ r.readpart) : r.pageOffset + r.size ≤ 4096 := by
  have := r.pageOffset.isLt
  unfold Request.readpart pageSize at short
  omega

theorem readpart_le (r : Request) : r.pageOffset + r.readpart ≤ 4096 := by
  have := r.pageOffset.isLt
  unfold Request.readpart pageSize
  omega

theorem page_bytes {m : CacheMap} {disk V : Nat → BitVec 8} {size n : Nat} {page : CachedPage} (r : Request)
    (agrees : ∀ i, i < size → m.view disk i = V i) (copied : m.copyOf r.pageNumber = some page)
    (fits : r.pageOffset + n ≤ 4096) (inside : r.position + n ≤ size) (j : Nat) (below : j < n) :
    page.buffer (r.pageOffset + j) = V (r.position + j) := by
  have number : (r.position + j) / 4096 = r.pageNumber := by
    unfold Request.position
    omega
  have place : (r.position + j) % 4096 = r.pageOffset + j := by
    unfold Request.position
    omega
  rw [← agrees (r.position + j) (by omega), CacheMap.view_some (number ▸ copied), place]

theorem ReadBy.after {V : Buffer} {r : Request} {t t' t'' : Transfer} {n : Nat} (long : r.readpart < r.size)
    (first : ReadBy V r t r.readpart t') (second : ReadBy V r.next t' n t'') :
    ReadBy V r t (r.readpart + n) t'' := by
  have step := Advanced.next long
  refine ⟨second.cacheMap.trans first.cacheMap, ?_, ?_⟩
  · rw [second.buffer, first.buffer, step.position, step.buffer]
    exact memcpy_memcpy
  · rw [second.nBytes, first.nBytes, BitVec.ofNat_add, ← BitVec.add_assoc]

theorem repeatRead_read {disk V : Nat → BitVec 8} {size : Nat} (r : Request) (t : Transfer)
    (agrees : ∀ i, i < size → t.cacheMap.view disk i = V i) (inside : r.position + r.size ≤ size) :
    Found r t.cacheMap (ReadBy V r t r.size) (ReadBy V r t) (repeatRead false r t) := by
  fun_induction repeatRead false r t with
  | case1 r t missing => exact .here (find?_none_of_findIdx? missing) ⟨rfl, (memcpy_zero ..).symm, by simp⟩
  | case2 r t i found page short =>
    have copied := getD_of_findIdx? found
    have held : t.cacheMap.copyOf r.pageNumber ≠ none := copied ▸ Option.some_ne_none _
    exact .only short held ⟨rfl, memcpy_congr (page_bytes r agrees copied (piece_le r short) inside), rfl⟩
  | case3 r t i found page short ih =>
    have long : r.readpart < r.size := Nat.lt_of_not_ge short
    have step := Advanced.next long
    have copied := getD_of_findIdx? found
    have held : t.cacheMap.copyOf r.pageNumber ≠ none := copied ▸ Option.some_ne_none _
    have first : ReadBy V r t r.readpart (copyPiece false r i page r.readpart t) :=
      ⟨rfl, memcpy_congr (page_bytes r agrees copied (readpart_le r) (by omega)), rfl⟩
    have rest := ih agrees (by have := step.position; have := step.size; omega)
    apply Found.after long held (fun p => Iff.rfl) rest
    · intro t' done
      have whole : r.readpart + r.next.size = r.size := (Nat.add_comm ..).trans step.size
      exact whole ▸ first.after long done
    · intro n t' done
      exact first.after long done

/-! Writes change the file that the cache holds. -/

/-- Copies are rewritten, and no page gains one or loses it. -/
structure Rewritten (m m' : CacheMap) : Prop where
  grown : Grown (fun _ => True) m m'
  absent : ∀ p, m.copyOf p = none → m'.copyOf p = none
  used : m'.used = m.used
  maxCachedPages : m'.maxCachedPages = m.maxCachedPages
  cachedPages : m'.cachedPages = m.cachedPages

theorem Rewritten.refl (m : CacheMap) : Rewritten m m := ⟨.refl _ m, fun _ none => none, rfl, rfl, rfl⟩

theorem Rewritten.trans {m m' m'' : CacheMap} (first : Rewritten m m') (second : Rewritten m' m'') :
    Rewritten m m'' where
  grown := first.grown.trans second.grown
  absent p none := second.absent p (first.absent p none)
  used := second.used.trans first.used
  maxCachedPages := second.maxCachedPages.trans first.maxCachedPages
  cachedPages := second.cachedPages.trans first.cachedPages

theorem Rewritten.missing_iff {m m' : CacheMap} (rewritten : Rewritten m m') (p : Nat) :
    m'.copyOf p = none ↔ m.copyOf p = none := ⟨rewritten.grown.missing p, rewritten.absent p⟩

theorem Rewritten.room {k : Resources} {m m' : CacheMap} {n : Nat} (rewritten : Rewritten m m') (room : Room k m n) :
    Room k m' n := by
  unfold Room at *
  rwa [rewritten.used, rewritten.maxCachedPages, rewritten.cachedPages]

/-- The bytes of a request are copied from the caller's buffer into the file that the cache shows. -/
structure WrittenBy (disk V : Nat → BitVec 8) (size : Nat) (r : Request) (t : Transfer) (n : Nat) (t' : Transfer) :
    Prop where
  rewritten : Rewritten t.cacheMap t'.cacheMap
  view : ∀ i, i < size → t'.cacheMap.view disk i = memcpy V r.position t.buffer r.buffer n i
  buffer : t'.buffer = t.buffer

/-- The copy of a page with a piece of a request written into it. -/
def writtenPage (r : Request) (u : Buffer) (n : Nat) (page : CachedPage) : CachedPage :=
  { page with buffer := memcpy page.buffer r.pageOffset u r.buffer n }

/-- A page's copy, replaced by one with a piece of the request in it. -/
theorem put_written {m : CacheMap} {disk V : Nat → BitVec 8} {size i n : Nat} {r : Request} {u : Buffer}
    {page : CachedPage} (later : CachedPage) (agrees : ∀ i, i < size → m.view disk i = V i)
    (found : m.pageCacheMap.findIdx? (CachedPage.holds r.pageNumber) = some i)
    (copied : m.copyOf r.pageNumber = some page) (fits : r.pageOffset + n ≤ 4096)
    (holds : later.holds r.pageNumber = true) (marked : page.modified = true → later.modified = true)
    (bytes : later.buffer = memcpy page.buffer r.pageOffset u r.buffer n) :
    Rewritten m (m.put i later) ∧ (m.put i later).copyOf r.pageNumber = some later ∧
      ∀ j, j < size → (m.put i later).view disk j = memcpy V r.position u r.buffer n j := by
  obtain ⟨grown, now⟩ := put_found found copied holds marked
  refine ⟨⟨grown.mono fun _ _ => trivial, ?_, put_found_used found holds, ?_, rfl⟩, now, ?_⟩
  · intro p none
    by_cases same : p = r.pageNumber
    · rw [same, copied] at none
      cases none
    · rwa [grown.other p same]
  · simp [CacheMap.put, CacheMap.maxCachedPages]
  · intro j inside
    rw [view_of_copy (fun q different => grown.other q different) now]
    by_cases here : j / 4096 = r.pageNumber
    · rw [if_pos here, bytes]
      apply memcpy_page here
      rw [← agrees j inside, CacheMap.view_some (here ▸ copied)]
    · rw [if_neg here, agrees j inside]
      exact (memcpy_elsewhere fits here).symm

theorem holds_of_copyOf {m : CacheMap} {p : Nat} {page : CachedPage} (copied : m.copyOf p = some page) :
    page.holds p = true := List.find?_some copied

theorem WrittenBy.after {disk V W : Nat → BitVec 8} {size n : Nat} {r : Request} {t t' t'' : Transfer}
    (long : r.readpart < r.size) (first : Rewritten t.cacheMap t'.cacheMap) (buffer : t'.buffer = t.buffer)
    (now : W = memcpy V r.position t.buffer r.buffer r.readpart) (second : WrittenBy disk W size r.next t' n t'') :
    WrittenBy disk V size r t (r.readpart + n) t'' where
  rewritten := first.trans second.rewritten
  buffer := second.buffer.trans buffer
  view i inside := by
    have step := Advanced.next long
    rw [second.view i inside, now, buffer, step.position, step.buffer]
    exact congrFun memcpy_memcpy i

theorem repeatRead_write {disk : Nat → BitVec 8} {size : Nat} (r : Request) (t : Transfer) :
    ∀ V : Nat → BitVec 8, (∀ i, i < size → t.cacheMap.view disk i = V i) → Found r t.cacheMap (fun t' => WrittenBy disk V size r t r.size t' ∧ t'.cacheMap.Marked r.last)
      (WrittenBy disk V size r t) (repeatRead true r t) := by
  fun_induction repeatRead true r t with
  | case1 r t missing =>
    intro V agrees
    apply Found.here (find?_none_of_findIdx? missing)
    refine ⟨.refl _, ?_, rfl⟩
    intro i inside
    rw [memcpy_zero]
    exact agrees i inside
  | case2 r t i found page short =>
    intro V agrees
    have copied : t.cacheMap.copyOf r.pageNumber = some page := getD_of_findIdx? found
    have holds := holds_of_copyOf copied
    have held : t.cacheMap.copyOf r.pageNumber ≠ none := copied ▸ Option.some_ne_none _
    have later : (markModified true i (copyPiece true r i page r.size t)).cacheMap =
        t.cacheMap.put i { writtenPage r t.buffer r.size page with modified := true } :=
      congrArg (fun pages => { t.cacheMap with pageCacheMap := pages }) modify_set
    obtain ⟨rewritten, now, view⟩ :=
      put_written { writtenPage r t.buffer r.size page with modified := true } agrees found copied (piece_le r short)
        holds (fun _ => rfl) rfl
    rw [← later] at rewritten now view
    refine .only short held ⟨⟨rewritten, view, rfl⟩, ?_⟩
    rw [Request.last_of_short short]
    exact ⟨_, now, rfl⟩
  | case3 r t i found page short ih =>
    intro V agrees
    have long : r.readpart < r.size := Nat.lt_of_not_ge short
    have step := Advanced.next long
    have copied : t.cacheMap.copyOf r.pageNumber = some page := getD_of_findIdx? found
    have holds := holds_of_copyOf copied
    have held : t.cacheMap.copyOf r.pageNumber ≠ none := copied ▸ Option.some_ne_none _
    obtain ⟨rewritten, _, view⟩ := put_written (writtenPage r t.buffer r.readpart page) agrees found copied
      (readpart_le r) holds (fun marked => marked) rfl
    have unread : (copyPiece true r i page r.readpart t).buffer = t.buffer := rfl
    have rest := ih _ view
    apply Found.after long held rewritten.missing_iff rest
    · rintro t' ⟨done, marked⟩
      have whole : r.readpart + r.next.size = r.size := (Nat.add_comm ..).trans step.size
      exact ⟨whole ▸ WrittenBy.after long rewritten unread rfl done, step.last_eq ▸ marked⟩
    · intro n t' done
      exact .after long rewritten unread rfl done

end Gr8os.Cc
