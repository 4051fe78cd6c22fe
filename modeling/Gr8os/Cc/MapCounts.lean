import Gr8os.Cc.Contents

/-! The counts of a cache map: its pages, the slots that hold them and the size of its table. A page put into the
cache moves all three, and nothing that is done later mends a count that went wrong. -/
namespace Gr8os.Cc

open Bytes Slots

/-- How many slots hold the page. -/
def CacheMap.copies (m : CacheMap) (p : Nat) : Nat := m.pageCacheMap.countP (CachedPage.holds p)

/-- What CcpCacheFilePage keeps up in the map. -/
structure MapOk (m : CacheMap) : Prop where
  unique : m.Unique
  counted : m.cachedPages = m.used
  bounded : m.maxCachedPages ≤ maxCachedPagesLimit

/-- The maps differ in the bytes and marks of pages at most. -/
structure Alike (m m' : CacheMap) : Prop where
  cachedPages : m'.cachedPages = m.cachedPages
  maxCachedPages : m'.maxCachedPages = m.maxCachedPages
  used : m'.used = m.used
  copies : ∀ p, m'.copies p = m.copies p
  clustersPerPage : m'.clustersPerPage = m.clustersPerPage

/-- The page has a buffer and a slot. -/
def Placed (k : Resources) (m : CacheMap) (p : Nat) : Prop :=
  k.cachedPage p = true ∧ m.used < m.maxCachedPages + m.growth k

instance (k : Resources) (m : CacheMap) (p : Nat) : Decidable (Placed k m p) := inferInstanceAs (Decidable (_ ∧ _))

/-- The counts after a page was put into the cache. -/
structure Put (k : Resources) (m m' : CacheMap) (p : Nat) : Prop where
  cachedPages : m'.cachedPages = m.cachedPages + 1
  maxCachedPages : m'.maxCachedPages = m.maxCachedPages + m.growth k
  used : m'.used = m.used + if Placed k m p then 1 else 0
  copies : ∀ q, m'.copies q = m.copies q + if Placed k m p ∧ q = p then 1 else 0
  clustersPerPage : m'.clustersPerPage = m.clustersPerPage

theorem copies_zero_iff {m : CacheMap} {p : Nat} : m.copies p = 0 ↔ m.copyOf p = none := by
  unfold CacheMap.copies CacheMap.copyOf
  rw [List.countP_eq_zero, List.find?_eq_none]

theorem used_le (m : CacheMap) : m.used ≤ m.maxCachedPages := List.countP_le_length

namespace Alike

variable {m m' m'' : CacheMap}

theorem refl (m : CacheMap) : Alike m m := ⟨rfl, rfl, rfl, fun _ => rfl, rfl⟩

theorem trans (first : Alike m m') (second : Alike m' m'') : Alike m m'' where
  cachedPages := second.cachedPages.trans first.cachedPages
  maxCachedPages := second.maxCachedPages.trans first.maxCachedPages
  used := second.used.trans first.used
  copies p := (second.copies p).trans (first.copies p)
  clustersPerPage := second.clustersPerPage.trans first.clustersPerPage

theorem copyOf (alike : Alike m m') (p : Nat) : m'.copyOf p = none ↔ m.copyOf p = none := by
  rw [← copies_zero_iff, ← copies_zero_iff, alike.copies p]

theorem ok_iff (alike : Alike m m') : MapOk m' ↔ MapOk m := by
  constructor
  · intro ok
    refine ⟨fun p => ?_, ?_, ?_⟩
    · exact Nat.le_trans (Nat.le_of_eq (alike.copies p).symm) (ok.unique p)
    · rw [← alike.cachedPages, ← alike.used]
      exact ok.counted
    · rw [← alike.maxCachedPages]
      exact ok.bounded
  · intro ok
    refine ⟨fun p => ?_, ?_, ?_⟩
    · exact Nat.le_trans (Nat.le_of_eq (alike.copies p)) (ok.unique p)
    · rw [alike.cachedPages, alike.used]
      exact ok.counted
    · rw [alike.maxCachedPages]
      exact ok.bounded

end Alike

theorem ccpGrowCacheMap_copies (k : Resources) (m : CacheMap) (p : Nat) :
    (ccpGrowCacheMap k m).copies p = m.copies p := by
  have blank : ({} : CachedPage).holds p = false := rfl
  simp only [ccpGrowCacheMap_eq, CacheMap.copies, List.countP_append, List.countP_replicate, blank,
    Bool.false_eq_true, if_false, Nat.add_zero]

/-- A free slot leaves the used ones short of the table. -/
theorem used_lt {m : CacheMap} {i : Nat} (free : m.pageCacheMap.findIdx? (fun page => !page.cached) = some i) :
    m.used < m.maxCachedPages := by
  obtain ⟨slot, at_i, uncached⟩ := get_of_findIdx? free
  apply Nat.lt_of_le_of_ne (used_le m)
  intro full
  have member : slot ∈ m.pageCacheMap := List.mem_of_getElem? at_i
  have cached := List.countP_eq_length.mp full slot member
  rw [cached] at uncached
  contradiction

theorem put_counts {m : CacheMap} {i : Nat} {page : CachedPage}
    (free : m.pageCacheMap.findIdx? (fun page => !page.cached) = some i) :
    (m.put i page).used = m.used + (if page.cached then 1 else 0) ∧
      ∀ q, (m.put i page).copies q = m.copies q + if page.holds q then 1 else 0 := by
  obtain ⟨slot, at_i, uncached⟩ := get_of_findIdx? free
  have unused : slot.cached = false := by simpa using uncached
  have empty : ∀ q, slot.holds q = false := fun q => by simp [CachedPage.holds, unused]
  constructor
  · have counts := countP_set (p := (·.cached)) (y := page) at_i
    simp only [unused, Bool.false_eq_true, if_false, Nat.add_zero] at counts
    exact counts
  · intro q
    have counts := countP_set (p := CachedPage.holds q) (y := page) at_i
    simp only [empty, Bool.false_eq_true, if_false, Nat.add_zero] at counts
    exact counts

theorem ccpCacheFilePage_put (k : Resources) (m : CacheMap) (p : Nat) (b : Buffer) :
    Put k m (ccpCacheFilePage k m p b).2 p := by
  have counted : (ccpGrowCacheMap k m).cachedPages = m.cachedPages + 1 := by rw [ccpGrowCacheMap_eq]
  have clusters : (ccpGrowCacheMap k m).clustersPerPage = m.clustersPerPage := by rw [ccpGrowCacheMap_eq]
  have longer : (ccpGrowCacheMap k m).maxCachedPages = m.maxCachedPages + m.growth k := by
    simp [ccpGrowCacheMap_eq, CacheMap.maxCachedPages]
  have used := ccpGrowCacheMap_used k m
  have copies := ccpGrowCacheMap_copies k m
  unfold ccpCacheFilePage
  generalize ccpGrowCacheMap k m = m₁ at counted clusters longer used copies ⊢
  dsimp only
  cases free : m₁.pageCacheMap.findIdx? (fun page => !page.cached) with
  | none =>
    have full := used_full free
    have unplaced : ¬Placed k m p := by
      rintro ⟨_, room⟩
      omega
    refine ⟨counted, longer, ?_, fun q => ?_, clusters⟩
    · rw [if_neg unplaced]
      exact used
    · rw [if_neg fun both => unplaced both.1]
      exact copies q
  | some i =>
    have room := used_lt free
    cases allocated : k.cachedPage p with
    | true =>
      have placed : Placed k m p := ⟨allocated, by omega⟩
      have counts := @put_counts m₁ i (freshCopy p b) free
      refine ⟨counted, ?_, ?_, fun q => ?_, clusters⟩
      · exact (List.length_set ..).trans longer
      · rw [if_pos placed, ← used]
        exact counts.1
      · have holds : ((freshCopy p b).holds q = true) ↔ q = p := by
          rw [CachedPage.holds_iff]
          exact ⟨fun both => both.2.symm, fun same => ⟨rfl, same.symm⟩⟩
        have count := counts.2 q
        rw [copies q] at count
        simp only [holds] at count
        simp only [placed, true_and]
        exact count
    | false =>
      have unplaced : ¬Placed k m p := by
        rintro ⟨granted, _⟩
        rw [allocated] at granted
        contradiction
      have counts := @put_counts m₁ i { cached := false, modified := false, pageNumber := p } free
      refine ⟨counted, ?_, ?_, fun q => ?_, clusters⟩
      · exact (List.length_set ..).trans longer
      · rw [if_neg unplaced, ← used]
        exact counts.1
      · rw [if_neg fun both => unplaced both.1, ← copies q]
        exact counts.2 q

namespace Put

variable {k : Resources} {m m' : CacheMap} {p : Nat}

/-- A page that had no copy now has one exactly if it was placed; the other pages are as they were. -/
theorem copies_of_ne (put : Put k m m' p) {q : Nat} (other : q ≠ p) : m'.copies q = m.copies q := by
  rw [put.copies q, if_neg fun both => other both.2]
  rfl

theorem copies_le (put : Put k m m' p) (q : Nat) : m.copies q ≤ m'.copies q := by
  rw [put.copies q]
  exact Nat.le_add_right ..

theorem sound (put : Put k m m' p) (sound : m.used ≤ m.cachedPages) : m'.used ≤ m'.cachedPages := by
  rw [put.used, put.cachedPages]
  split <;> omega

/-- The map is in order afterwards only if it was before and the page was new and placed in a table of legal size. -/
theorem ok_back (put : Put k m m' p) (sound : m.used ≤ m.cachedPages) (ok : MapOk m') :
    MapOk m ∧ m.copies p = 0 ∧ Placed k m p ∧ m.maxCachedPages + m.growth k ≤ maxCachedPagesLimit := by
  have counted := ok.counted
  rw [put.cachedPages, put.used] at counted
  have placed : Placed k m p := by
    apply Decidable.byContradiction
    intro unplaced
    rw [if_neg unplaced] at counted
    omega
  rw [if_pos placed] at counted
  have single := ok.unique p
  have one : m'.copies p = m.copies p + 1 := by rw [put.copies p, if_pos ⟨placed, rfl⟩]
  have bounded : m.maxCachedPages + m.growth k ≤ maxCachedPagesLimit := put.maxCachedPages ▸ ok.bounded
  refine ⟨⟨fun q => Nat.le_trans (put.copies_le q) (ok.unique q), Nat.succ.inj counted, by omega⟩, ?_, placed, bounded⟩
  have : m'.copies p ≤ 1 := single
  omega

theorem ok_forth (put : Put k m m' p) (ok : MapOk m) (missing : m.copies p = 0) (placed : Placed k m p)
    (bounded : m.maxCachedPages + m.growth k ≤ maxCachedPagesLimit) : MapOk m' := by
  refine ⟨fun q => ?_, ?_, ?_⟩
  · show m'.copies q ≤ 1
    by_cases same : q = p
    · subst same
      rw [put.copies q, if_pos ⟨placed, rfl⟩, missing]
    · rw [put.copies_of_ne same]
      exact ok.unique q
  · rw [put.cachedPages, put.used, if_pos placed, ok.counted]
  · rw [put.maxCachedPages]
    exact bounded

end Put

/-- A request's effect on the counts: the pages that it puts into the cache one after another, with changes to
bytes and marks between them. -/
inductive Puts (k : Resources) : CacheMap → List Nat → CacheMap → Prop
  | done {m m' : CacheMap} (alike : Alike m m') : Puts k m [] m'
  | put {m m₁ m₂ m' : CacheMap} {p : Nat} {ps : List Nat} (alike : Alike m m₁) (put : Put k m₁ m₂ p)
      (rest : Puts k m₂ ps m') : Puts k m (p :: ps) m'

/-- Each of the pages gets a buffer and a slot, and the table keeps to its limit when it is doubled. -/
def Fits (k : Resources) : Nat → Nat → List Nat → Prop
  | _, _, [] => True
  | cachedPages, maxCachedPages, p :: ps =>
    let growth := if cachedPages + 1 = maxCachedPages ∧ k.heap (maxCachedPages * 2) = true then maxCachedPages else 0
    k.cachedPage p = true ∧ cachedPages < maxCachedPages ∧ maxCachedPages + growth ≤ maxCachedPagesLimit ∧
      Fits k (cachedPages + 1) (maxCachedPages + growth) ps

/-- None of the pages has a copy yet, and they all fit. -/
def CanPut (k : Resources) (m : CacheMap) (ps : List Nat) : Prop :=
  (∀ p ∈ ps, m.copyOf p = none) ∧ Fits k m.cachedPages m.maxCachedPages ps

namespace Puts

variable {k : Resources} {m m' : CacheMap} {ps : List Nat}

theorem of_alike {m₁ : CacheMap} (first : Alike m m₁) (puts : Puts k m₁ ps m') : Puts k m ps m' := by
  cases puts with
  | done alike => exact .done (first.trans alike)
  | put alike put rest => exact .put (first.trans alike) put rest

theorem alike {m₁ : CacheMap} (puts : Puts k m ps m₁) (last : Alike m₁ m') : Puts k m ps m' := by
  induction puts with
  | done alike => exact .done (alike.trans last)
  | put alike put _ ih => exact .put alike put (ih last)

theorem copies_le (puts : Puts k m ps m') (q : Nat) : m.copies q ≤ m'.copies q := by
  induction puts with
  | done alike => exact Nat.le_of_eq (alike.copies q).symm
  | put alike put _ ih =>
    rw [← alike.copies q]
    exact Nat.le_trans (put.copies_le q) ih

/-- A map that is in order at the end was in order all along. -/
theorem ok_back (puts : Puts k m ps m') (sound : m.used ≤ m.cachedPages) (ok : MapOk m') : MapOk m := by
  induction puts with
  | done alike => exact alike.ok_iff.mp ok
  | put alike put _ ih =>
    rw [← alike.used, ← alike.cachedPages] at sound
    exact alike.ok_iff.mp (put.ok_back sound (ih (put.sound sound) ok)).1

/-- The map stays in order exactly if the pages can be put into it. -/
theorem ok_iff (puts : Puts k m ps m') (distinct : ps.Nodup) (ok : MapOk m) : MapOk m' ↔ CanPut k m ps := by
  induction puts with
  | done alike => exact ⟨fun _ => ⟨fun p member => absurd member List.not_mem_nil, trivial⟩, fun _ => alike.ok_iff.mpr ok⟩
  | @put m m₁ m₂ m' p ps alike put rest ih =>
    obtain ⟨outside, distinct⟩ := List.nodup_cons.mp distinct
    have ok₁ := alike.ok_iff.mpr ok
    have sound : m₁.used ≤ m₁.cachedPages := Nat.le_of_eq ok₁.counted.symm
    have growth : m₁.growth k = if m.cachedPages + 1 = m.maxCachedPages ∧ k.heap (m.maxCachedPages * 2) = true then
        m.maxCachedPages else 0 := by
      unfold CacheMap.growth
      rw [alike.cachedPages, alike.maxCachedPages]
    have others : ∀ q ∈ ps, (m₂.copyOf q = none ↔ m.copyOf q = none) := by
      intro q member
      have other : q ≠ p := by
        rintro rfl
        exact outside member
      rw [← copies_zero_iff, put.copies_of_ne other, copies_zero_iff]
      exact alike.copyOf q
    have fits : Fits k m₂.cachedPages m₂.maxCachedPages ps ↔
        Fits k (m.cachedPages + 1) (m.maxCachedPages + m₁.growth k) ps := by
      rw [put.cachedPages, put.maxCachedPages, alike.cachedPages, alike.maxCachedPages]
    have slot : m₁.used < m₁.maxCachedPages + m₁.growth k ↔ m.cachedPages < m.maxCachedPages := by
      rw [← ok₁.counted, alike.cachedPages, alike.maxCachedPages, growth]
      split <;> omega
    constructor
    · intro after
      have ok₂ := rest.ok_back (put.sound sound) after
      obtain ⟨_, missing, placed, bounded⟩ := put.ok_back sound ok₂
      obtain ⟨absent, room⟩ := (ih distinct ok₂).mp after
      refine ⟨?_, placed.1, slot.mp placed.2, ?_, ?_⟩
      · intro q member
        rcases List.mem_cons.mp member with rfl | later
        · exact (alike.copyOf q).mp (copies_zero_iff.mp missing)
        · exact (others q later).mp (absent q later)
      · rw [← growth, ← alike.maxCachedPages]
        exact bounded
      · rw [← growth]
        exact fits.mp room
    · rintro ⟨absent, allocated, space, bounded, room⟩
      rw [← growth] at bounded room
      have missing : m₁.copies p = 0 := copies_zero_iff.mpr ((alike.copyOf p).mpr (absent p List.mem_cons_self))
      have ok₂ := put.ok_forth ok₁ missing ⟨allocated, slot.mpr space⟩ (alike.maxCachedPages ▸ bounded)
      apply (ih distinct ok₂).mpr
      exact ⟨fun q member => (others q member).mpr (absent q (List.mem_cons_of_mem p member)), fits.mpr room⟩

/-- In a map that is in order at the end every page that was put into it has its copy. -/
theorem kept (puts : Puts k m ps m') (sound : m.used ≤ m.cachedPages) (ok : MapOk m') :
    ∀ p ∈ ps, m'.copyOf p ≠ none := by
  induction puts with
  | done => exact fun p member => absurd member List.not_mem_nil
  | @put m m₁ m₂ m' p ps alike put rest ih =>
    rw [← alike.used, ← alike.cachedPages] at sound
    have ok₂ := rest.ok_back (put.sound sound) ok
    obtain ⟨_, _, placed, _⟩ := put.ok_back sound ok₂
    intro q member
    rcases List.mem_cons.mp member with rfl | later
    · have one : m₂.copies q = m₁.copies q + 1 := by rw [put.copies q, if_pos ⟨placed, rfl⟩]
      have more := rest.copies_le q
      intro none
      have := copies_zero_iff.mpr none
      omega
    · exact ih (put.sound sound) ok q later

end Puts

end Gr8os.Cc
