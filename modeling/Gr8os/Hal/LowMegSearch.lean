import Gr8os.Hal.LowMeg

/-! Which run of pages the search finds, and when it finds none although there is one. -/
namespace Gr8os.Hal

open Machine

/-- A run of free pages begins at the page, and it ends in front of the last page. -/
structure Fits (pageCount : BitVec 8) (table : BusyTable) (i : BitVec 8) : Prop where
  below : i.toNat + pageCount.toNat ≤ 255
  first : table i = .free
  free : ∀ p : BitVec 8, i.toNat ≤ p.toNat → p.toNat < i.toNat + pageCount.toNat → table p = .free

/-- The page that is tried next: from a free page that begins no run all of its run is skipped. -/
def skip (pageCount : BitVec 8) (table : BusyTable) (i : BitVec 8) : BitVec 8 :=
  if table i = .free then i + pageCount else i + 1

/-- The first of the pages tried that begins a run. -/
def Chosen (pageCount : BitVec 8) (table : BusyTable) (i : BitVec 8) : Prop :=
  ∃ k, (skip pageCount table)^[k] 0 = i ∧ Fits pageCount table i ∧
    ∀ m < k, ¬Fits pageCount table ((skip pageCount table)^[m] 0)

def allocatedRun (table : BusyTable) (i pageCount : BitVec 8) : BusyTable := fun p =>
  if i.toNat ≤ p.toNat ∧ p.toNat < i.toNat + pageCount.toNat then .allocated else table p

def Allocates (pageCount : BitVec 8) (table : BusyTable) (r : BitVec 8 × BusyTable) : Prop :=
  ∃ fuel, halAllocatePhysicalLowMegPages pageCount table fuel = some r

section loops

variable {table t : BusyTable} {stop fuel : Nat} {j p : BitVec 8}

theorem next_toNat (inside : j.toNat < 255) : (j + 1).toNat = j.toNat + 1 := by
  rw [BitVec.toNat_add]
  exact Nat.mod_eq_of_lt (Nat.succ_lt_succ inside)

theorem findBusy_mono {r : Bool} {more : Nat} (enough : fuel ≤ more) (found : findBusy table stop fuel j = some r) :
    findBusy table stop more j = some r := by
  induction fuel generalizing more j with
  | zero => cases found
  | succ fuel ih =>
    obtain ⟨more, rfl⟩ := Nat.exists_eq_succ_of_ne_zero (Nat.ne_of_gt (Nat.lt_of_lt_of_le fuel.succ_pos enough))
    rw [findBusy] at found ⊢
    by_cases inside : j.toNat < stop
    · rw [if_pos inside] at found ⊢
      by_cases here : table j ≠ .free
      · rwa [if_pos here] at found ⊢
      · rw [if_neg here] at found ⊢
        exact ih (Nat.le_of_succ_le_succ enough) found
    · rwa [if_neg inside] at found ⊢

theorem findBusy_busy (busy : table p ≠ .free) (inside : ∀ q, (q - j).toNat ≤ (p - j).toNat → q.toNat < stop)
    (enough : (p - j).toNat < fuel) : findBusy table stop fuel j = some true := by
  induction fuel generalizing j with
  | zero => exact absurd enough (Nat.not_lt_zero _)
  | succ fuel ih =>
    rw [findBusy, if_pos (inside j (by simp))]
    by_cases here : table j = .free
    · rw [if_neg (not_not_intro here)]
      have apart : p ≠ j := fun same => busy (same ▸ here)
      have less : ∀ q, q ≠ j → (q - (j + 1)).toNat = (q - j).toNat - 1 ∧ 0 < (q - j).toNat := by
        intro q other
        bv_omega
      refine ih ?_ ?_
      · intro q near
        by_cases first : q = j
        · rw [first]
          exact inside j (by simp)
        · have := less q first
          have := less p apart
          exact inside q (by omega)
      · have := less p apart
        omega
    · rw [if_pos here]

theorem findBusy_free (below : stop ≤ 255)
    (free : ∀ p : BitVec 8, j.toNat ≤ p.toNat → p.toNat < stop → table p = .free) (enough : stop - j.toNat < fuel) :
    findBusy table stop fuel j = some false := by
  induction fuel generalizing j with
  | zero => exact absurd enough (Nat.not_lt_zero _)
  | succ fuel ih =>
    rw [findBusy]
    by_cases inside : j.toNat < stop
    · have next := next_toNat (Nat.lt_of_lt_of_le inside below)
      rw [if_pos inside, if_neg (not_not_intro (free j (Nat.le_refl _) inside))]
      refine ih ?_ (by omega)
      intro p above
      exact free p (by omega)
    · rw [if_neg inside]

theorem findBusy_false (found : findBusy table stop fuel j = some false) : stop ≤ 255 ∧
    ∀ p : BitVec 8, j.toNat ≤ p.toNat → p.toNat < stop → table p = .free := by
  induction fuel generalizing j with
  | zero => cases found
  | succ fuel ih =>
    rw [findBusy] at found
    split at found
    · next inside =>
      split at found
      · cases found
      · next here =>
        obtain ⟨below, rest⟩ := ih found
        have next := next_toNat (Nat.lt_of_lt_of_le inside below)
        refine ⟨below, ?_⟩
        intro p above under
        by_cases first : p = j
        · rw [first]
          exact Decidable.of_not_not here
        · have apart : p.toNat ≠ j.toNat := fun same => first (BitVec.eq_of_toNat_eq same)
          exact rest p (by omega) under
    · next outside =>
      refine ⟨by omega, ?_⟩
      intro p above under
      omega

theorem markAllocated_eq (below : stop ≤ 255) (enough : stop - j.toNat < fuel) :
    markAllocated stop fuel j t =
      some fun p => if j.toNat ≤ p.toNat ∧ p.toNat < stop then .allocated else t p := by
  induction fuel generalizing j t with
  | zero => exact absurd enough (Nat.not_lt_zero _)
  | succ fuel ih =>
    rw [markAllocated]
    by_cases inside : j.toNat < stop
    · have next := next_toNat (Nat.lt_of_lt_of_le inside below)
      rw [if_pos inside, ih (by omega)]
      refine congrArg some (funext fun p => ?_)
      by_cases first : p = j
      · subst first
        rw [if_neg (by omega), if_pos ⟨Nat.le_refl _, inside⟩, Function.update_self]
      · have apart : p.toNat ≠ j.toNat := fun same => first (BitVec.eq_of_toNat_eq same)
        have same : ((j + 1).toNat ≤ p.toNat ∧ p.toNat < stop) = (j.toNat ≤ p.toNat ∧ p.toNat < stop) :=
          propext (by omega)
        rw [Function.update_of_ne first]
        simp only [same]
    · rw [if_neg inside]
      refine congrArg some (funext fun p => ?_)
      rw [if_neg (by omega)]

theorem markAllocated_mono {r : BusyTable} {more : Nat} (enough : fuel ≤ more)
    (marked : markAllocated stop fuel j t = some r) : markAllocated stop more j t = some r := by
  induction fuel generalizing more j t with
  | zero => cases marked
  | succ fuel ih =>
    obtain ⟨more, rfl⟩ := Nat.exists_eq_succ_of_ne_zero (Nat.ne_of_gt (Nat.lt_of_lt_of_le fuel.succ_pos enough))
    rw [markAllocated] at marked ⊢
    by_cases inside : j.toNat < stop
    · rw [if_pos inside] at marked ⊢
      exact ih (Nat.le_of_succ_le_succ enough) marked
    · rwa [if_neg inside] at marked ⊢

end loops

section search

variable {pageCount i : BitVec 8} {table : BusyTable} {fuel : Nat} {r : BitVec 8 × BusyTable}

theorem halAllocateFrom_mono {more : Nat} (enough : fuel ≤ more)
    (run : halAllocateFrom pageCount table fuel i = some r) : halAllocateFrom pageCount table more i = some r := by
  induction fuel generalizing more i with
  | zero => cases run
  | succ fuel ih =>
    obtain ⟨more, rfl⟩ := Nat.exists_eq_succ_of_ne_zero (Nat.ne_of_gt (Nat.lt_of_lt_of_le fuel.succ_pos enough))
    have fewer := Nat.le_of_succ_le_succ enough
    rw [halAllocateFrom, if_pos i.isLt] at run ⊢
    by_cases free : table i = .free
    · rw [if_pos free] at run ⊢
      obtain ⟨busy, found, rest⟩ := Option.bind_eq_some_iff.mp run
      rw [findBusy_mono fewer found, Option.bind_some]
      cases busy with
      | false =>
        obtain ⟨marked, marks, rfl⟩ := Option.map_eq_some_iff.mp rest
        rw [markAllocated_mono fewer marks]
        rfl
      | true => exact ih fewer rest
    · rw [if_neg free] at run ⊢
      exact ih fewer run

theorem Fits.findBusy (fits : Fits pageCount table i) :
    Hal.findBusy table (i.toNat + pageCount.toNat) (pageCount.toNat + 1) i = some false :=
  findBusy_free fits.below fits.free (by omega)

/-- A free page that begins no run is found out, unless no page at all is busy. -/
theorem findBusy_of_not_fits (free : table i = .free) (busy : ∃ p, table p ≠ .free)
    (unfit : ¬Fits pageCount table i) : ∃ fuel, findBusy table (i.toNat + pageCount.toNat) fuel i = some true := by
  by_cases below : i.toNat + pageCount.toNat ≤ 255
  · have blocked : ∃ p : BitVec 8, i.toNat ≤ p.toNat ∧ p.toNat < i.toNat + pageCount.toNat ∧ table p ≠ .free := by
      by_contra none
      refine unfit ⟨below, free, fun p above under => ?_⟩
      by_contra other
      exact none ⟨p, above, under, other⟩
    obtain ⟨p, above, under, taken⟩ := blocked
    refine ⟨_, findBusy_busy taken ?_ (Nat.lt_succ_self _)⟩
    intro q near
    bv_omega
  · obtain ⟨p, taken⟩ := busy
    refine ⟨_, findBusy_busy taken ?_ (Nat.lt_succ_self _)⟩
    intro q _
    exact Nat.lt_of_lt_of_le q.isLt (Nat.lt_of_not_le below)

theorem halAllocateFrom_fits (fits : Fits pageCount table i) :
    halAllocateFrom pageCount table (pageCount.toNat + 2) i = some (i, allocatedRun table i pageCount) := by
  rw [halAllocateFrom, if_pos i.isLt, if_pos fits.first, fits.findBusy, Option.bind_some,
    markAllocated_eq fits.below (by omega)]
  rfl

theorem halAllocateFrom_skip (busy : ∃ p, table p ≠ .free) (unfit : ¬Fits pageCount table i)
    (rest : ∃ fuel, halAllocateFrom pageCount table fuel (skip pageCount table i) = some r) :
    ∃ fuel, halAllocateFrom pageCount table fuel i = some r := by
  obtain ⟨fuel, rest⟩ := rest
  rw [skip] at rest
  by_cases free : table i = .free
  · rw [if_pos free] at rest
    obtain ⟨least, found⟩ := findBusy_of_not_fits free busy unfit
    have next : i + (pageCount - 1) + 1 = i + pageCount := by
      bv_omega
    refine ⟨max fuel least + 1, ?_⟩
    rw [halAllocateFrom, if_pos i.isLt, if_pos free, findBusy_mono (Nat.le_max_right fuel least) found,
      Option.bind_some, next]
    exact halAllocateFrom_mono (Nat.le_max_left fuel least) rest
  · rw [if_neg free] at rest
    refine ⟨fuel + 1, ?_⟩
    rw [halAllocateFrom, if_pos i.isLt, if_neg free]
    exact rest

theorem halAllocateFrom_chosen (run : halAllocateFrom pageCount table fuel i = some r) :
    r.2 = allocatedRun table r.1 pageCount ∧ ∃ k, (skip pageCount table)^[k] i = r.1 ∧
      Fits pageCount table r.1 ∧ ∀ m < k, ¬Fits pageCount table ((skip pageCount table)^[m] i) := by
  induction fuel generalizing i with
  | zero => cases run
  | succ fuel ih =>
    rw [halAllocateFrom, if_pos i.isLt] at run
    -- The search goes on from a page that does not fit, and the rest of it is known.
    have later : ¬Fits pageCount table i → halAllocateFrom pageCount table fuel (skip pageCount table i) = some r →
        r.2 = allocatedRun table r.1 pageCount ∧ ∃ k, (skip pageCount table)^[k] i = r.1 ∧
          Fits pageCount table r.1 ∧ ∀ m < k, ¬Fits pageCount table ((skip pageCount table)^[m] i) := by
      intro unfit rest
      obtain ⟨marked, k, here, fits, before⟩ := ih rest
      refine ⟨marked, k + 1, here, fits, ?_⟩
      intro m less
      cases m with
      | zero => exact unfit
      | succ m => exact before m (Nat.lt_of_succ_lt_succ less)
    by_cases free : table i = .free
    · rw [if_pos free] at run
      obtain ⟨busy, found, rest⟩ := Option.bind_eq_some_iff.mp run
      cases busy with
      | false =>
        obtain ⟨below, all⟩ := findBusy_false found
        obtain ⟨marked, marks, rfl⟩ := Option.map_eq_some_iff.mp rest
        have exactly := markAllocated_mono (Nat.le_add_right fuel (pageCount.toNat + 1)) marks
        rw [markAllocated_eq below (by omega)] at exactly
        refine ⟨(Option.some.inj exactly).symm, 0, rfl, ⟨below, free, all⟩, ?_⟩
        intro m less
        exact absurd less (Nat.not_lt_zero m)
      | true =>
        refine later ?_ ?_
        · intro fits
          have one := findBusy_mono (Nat.le_add_right fuel (pageCount.toNat + 1)) found
          have other := findBusy_mono (Nat.le_add_left (pageCount.toNat + 1) fuel) fits.findBusy
          rw [one] at other
          cases other
        · have next : i + (pageCount - 1) + 1 = i + pageCount := by
            bv_omega
          rw [skip, if_pos free, ← next]
          exact rest
    · rw [if_neg free] at run
      refine later (fun fits => free fits.first) ?_
      rw [skip, if_neg free]
      exact run

theorem allocates_iff : Allocates pageCount table r ↔
    Chosen pageCount table r.1 ∧ r.2 = allocatedRun table r.1 pageCount := by
  constructor
  · rintro ⟨fuel, run⟩
    obtain ⟨marked, chosen⟩ := halAllocateFrom_chosen run
    exact ⟨chosen, marked⟩
  · rintro ⟨⟨k, here, fits, before⟩, marked⟩
    have found : ∃ fuel, halAllocateFrom pageCount table fuel r.1 = some r :=
      ⟨_, (halAllocateFrom_fits fits).trans (by rw [← marked])⟩
    by_cases busy : ∃ p, table p ≠ .free
    · have back : ∀ m ≤ k, ∃ fuel,
          halAllocateFrom pageCount table fuel ((skip pageCount table)^[k - m] 0) = some r := by
        intro m less
        induction m with
        | zero => rwa [Nat.sub_zero, here]
        | succ m ih =>
          have earlier : k - m = (k - (m + 1)) + 1 := by omega
          have rest := ih (Nat.le_of_succ_le less)
          rw [earlier, Function.iterate_succ_apply'] at rest
          exact halAllocateFrom_skip busy (before _ (by omega)) rest
      have start := back k (Nat.le_refl k)
      rwa [Nat.sub_self] at start
    · -- All pages are free, and the first one is taken.
      have all : ∀ p, table p = .free := fun p => Decidable.of_not_not fun other => busy ⟨p, other⟩
      have first : Fits pageCount table 0 := by
        refine ⟨?_, all 0, fun p _ _ => all p⟩
        have := pageCount.isLt
        have zero : (0 : BitVec 8).toNat = 0 := rfl
        omega
      cases k with
      | zero =>
        rw [Function.iterate_zero_apply] at here
        rwa [← here] at found
      | succ k => exact absurd first (before 0 k.succ_pos)

theorem Chosen.unique {j : BitVec 8} (one : Chosen pageCount table i) (other : Chosen pageCount table j) : i = j := by
  obtain ⟨k, rfl, fits, before⟩ := one
  obtain ⟨l, rfl, fits', before'⟩ := other
  rcases Nat.lt_trichotomy k l with less | same | less
  · exact absurd fits (before' k less)
  · rw [same]
  · exact absurd fits' (before l less)

theorem chosen_iff_reached : (∃ i, Chosen pageCount table i) ↔
    ∃ i, Reaches (skip pageCount table) 0 i ∧ Fits pageCount table i := by
  constructor
  · rintro ⟨i, k, here, fits, -⟩
    exact ⟨i, ⟨k, here⟩, fits⟩
  · rintro ⟨i, ⟨k, here⟩, fits⟩
    have some : ∃ k, Fits pageCount table ((skip pageCount table)^[k] 0) := ⟨k, here ▸ fits⟩
    classical
    exact ⟨_, Nat.find some, rfl, Nat.find_spec some, fun m less => Nat.find_min some less⟩

end search

section requests

variable {pageCount : BitVec 8} {table : BusyTable}

/-- So many free pages follow each other from a page on, up to the last page at most. -/
structure FreeRun (table : BusyTable) (start pageCount : Nat) : Prop where
  inside : start + pageCount ≤ 256
  free : ∀ p : BitVec 8, start ≤ p.toNat → p.toNat < start + pageCount → table p = .free

/-- A free run is marked and returned if there is one, and without one the table stays as it is. -/
structure MeetsRequest (pageCount : BitVec 8) (table : BusyTable) (r : BitVec 8 × BusyTable) : Prop where
  found : (∃ start, FreeRun table start pageCount.toNat) →
    FreeRun table r.1.toNat pageCount.toNat ∧ r.2 = allocatedRun table r.1 pageCount
  missing : (¬∃ start, FreeRun table start pageCount.toNat) → r = (0, table)

theorem Fits.freeRun {i : BitVec 8} (fits : Fits pageCount table i) : FreeRun table i.toNat pageCount.toNat :=
  ⟨Nat.le_succ_of_le fits.below, fits.free⟩

/-- An allocation does what it is asked for if the pages it tries come to the beginning of a run that ends in front of
the last page. Otherwise it does not return. -/
theorem allocation_meets_iff : (∃ r, Allocates pageCount table r ∧ MeetsRequest pageCount table r) ↔
    ∃ i, Reaches (skip pageCount table) 0 i ∧ Fits pageCount table i := by
  rw [← chosen_iff_reached]
  constructor
  · rintro ⟨r, allocates, -⟩
    exact ⟨r.1, (allocates_iff.mp allocates).1⟩
  · rintro ⟨i, chosen⟩
    have run : FreeRun table i.toNat pageCount.toNat := by
      obtain ⟨k, -, fits, -⟩ := chosen
      exact fits.freeRun
    refine ⟨(i, allocatedRun table i pageCount), allocates_iff.mpr ⟨chosen, rfl⟩, ?_, ?_⟩
    · intro _
      exact ⟨run, rfl⟩
    · intro none
      exact absurd ⟨_, run⟩ none

/-- The search does not miss a run that is almost twice as long as the one it looks for. -/
theorem reaches_longRun {start : Nat} {i : BitVec 8} (positive : 0 < pageCount.toNat)
    (below : start + (2 * pageCount.toNat - 1) ≤ 255)
    (free : ∀ p : BitVec 8, start ≤ p.toNat → p.toNat < start + (2 * pageCount.toNat - 1) → table p = .free)
    (before : i.toNat < start + pageCount.toNat) :
    ∃ j, Reaches (skip pageCount table) i j ∧ Fits pageCount table j := by
  generalize bound : start + pageCount.toNat - i.toNat = left
  induction left using Nat.strongRecOn generalizing i with
  | ind left ih =>
    by_cases inside : start ≤ i.toNat
    · refine ⟨i, .refl i, by omega, free i inside (by omega), ?_⟩
      intro p above under
      exact free p (by omega) (by omega)
    · have next : (skip pageCount table i).toNat = i.toNat + 1 ∨
          (skip pageCount table i).toNat = i.toNat + pageCount.toNat := by
        rw [skip]
        split
        · right
          rw [BitVec.toNat_add]
          exact Nat.mod_eq_of_lt (by omega)
        · left
          exact next_toNat (by omega)
      obtain ⟨j, rest, fits⟩ := ih _ (by omega) (i := skip pageCount table i) (by omega) rfl
      exact ⟨j, rest.head, fits⟩

def lastPageFree : BusyTable := fun p => if p = 255 then .free else .allocated

theorem lastPageFree_hangs : FreeRun lastPageFree 255 1 ∧
    ¬∃ r, Allocates 1 lastPageFree r ∧ MeetsRequest 1 lastPageFree r := by
  refine ⟨⟨by decide, ?_⟩, ?_⟩
  · intro p above _
    have last : p = 255 := by bv_omega
    exact if_pos last
  · rintro ⟨r, allocates, -⟩
    obtain ⟨⟨k, -, fits, -⟩, -⟩ := allocates_iff.mp allocates
    have last : r.1 = 255 := by
      by_contra other
      have taken := fits.first
      rw [lastPageFree, if_neg other] at taken
      cases taken
    have below := fits.below
    rw [last] at below
    exact absurd below (by decide)

end requests

end Gr8os.Hal
